/-
  NaturalDeduction.Proofs.Coverage
  ────────────────────────────────
  **NO MEANINGFUL CHARACTER IS LOST, and no token ends too early.**

  A scan goes through the text once.  At each place either a recogniser takes a
  lexeme, which is put down with its bytes, or the character there starts none
  and is passed over.  So the tokens tile the text but for such characters
  (`Tiles`), and since each recogniser takes all it can, a token could only go on
  if the text were another one.  Main statements:

    • `Recognised.not_goesOnWith` — no lexeme stops before a character that it
      goes on with,
    • `isPassedOver_of_scan` — what lies outside of all tokens was passed over,
    • `tokenize_tiles` — both together with the places of the tokens.
-/
import NaturalDeduction.Proofs.TokenBoundaries

namespace NaturalDeduction

/-- Does the span take in the byte at this place? -/
def Span.Covers (s : Span) (n : Nat) : Prop := s.start ≤ n ∧ n < s.stop

namespace Token

/-! ## §1. What is passed over. -/

/-- The characters that are tokens by themselves. -/
def signs : List Char := ['(', ')', ',', '.', ':', '|', '[', ']', '/', '-', '=', '&', '>', '~']

/-- The characters that may be left out of all tokens: blanks, and those that are
no letters, no digits and no signs. -/
def IsPassedOver (c : Char) : Prop :=
  isBlank c = true ∨ (isAlphabetic c = false ∧ c.isDigit = false ∧ c ∉ signs)

theorem not_mem_signs {c : Char} (h : sign? c = none) : c ∉ signs := by
  have hsigns : (signs.all fun d => (sign? d).isSome) = true := by decide
  intro hc
  have hthis := List.all_eq_true.mp hsigns c hc
  rw [h] at hthis
  exact Bool.noConfusion hthis

/-- A character that starts no lexeme has no meaning. -/
theorem isPassedOver_of_lexeme? {c : Char} {rest : List Char} (h : lexeme? (c :: rest) = none) :
    IsPassedOver c := by
  rcases lexeme?_eq_none_iff.mp h with hblank | ⟨hdigit, hstart, hsign⟩
  · exact .inl hblank
  · exact .inr ⟨hstart, hdigit, not_mem_signs hsign⟩

/-- **What lies outside of all tokens was passed over.**  The place is counted in
bytes from the start of the whole, `offset` bytes before the scan begins. -/
theorem isPassedOver_of_scan {offset : Nat} {cs after : List Char} {c : Char}
    (before : List Char) (htext : cs = before ++ c :: after)
    (houtside : ∀ t ∈ scan offset cs, ¬ t.span.Covers (offset + byteLength before)) :
    IsPassedOver c := by
  fun_induction scan offset cs generalizing before with
  | case1 => exact absurd htext (by simp)
  | case2 offset d rest hnone ih =>
      cases before with
      | nil =>
          obtain ⟨rfl, -⟩ := List.cons.inj htext
          exact isPassedOver_of_lexeme? hnone
      | cons d' before =>
          obtain ⟨rfl, hrest⟩ := List.cons.inj htext
          refine ih before hrest ?_
          rwa [byteLength_cons, ← Nat.add_assoc] at houtside
  | case3 offset d rest kind lexeme hlexeme stop ih =>
      -- The place is not among the bytes of the first token, so it lies behind them.
      have hbehind : byteLength lexeme ≤ byteLength before := by
        have hfirst := houtside _ List.mem_cons_self
        simp only [Span.Covers, not_and, not_lt] at hfirst
        have hle := hfirst (Nat.le_add_right _ _)
        omega
      have hsplit := lexeme_append_drop hlexeme
      obtain ⟨between, rfl⟩ : lexeme <+: before :=
        isPrefix_of_byteLength_le ⟨_, hsplit.symm⟩ ⟨_, htext.symm⟩ hbehind
      rw [hsplit, List.append_assoc, List.append_cancel_left_eq] at htext
      refine ih between htext fun t ht => ?_
      have hout := houtside t (List.mem_cons_of_mem _ ht)
      rwa [byteLength_append, ← Nat.add_assoc] at hout

/-! ## §2. What would make a token longer. -/

/-- Would a token of the kind go on with this character, or be another token with
it? -/
def Kind.goesOnWith : Kind → Char → Bool
  | .identifier, c | .dashedWord, c | .ruleName, c => isNameRest c
  | .number, c | .falsity, c => c.isDigit
  | .bar, c => c = '-'
  | .dash, c => isAlphabetic c
  | _, _ => false

/-- A sign goes on with nothing, but for `|` and `-`. -/
theorem goesOnWith_of_sign? {c : Char} {kind : Kind} (h : sign? c = some kind) :
    (kind = .bar ∧ c = '|') ∨ (kind = .dash ∧ c = '-') ∨ ∀ d, kind.goesOnWith d = false := by
  unfold sign? at h
  split at h <;> cases h
  all_goals first
    | exact .inl ⟨rfl, rfl⟩
    | exact .inr (.inl ⟨rfl, rfl⟩)
    | exact .inr (.inr fun d => rfl)

/-- **No lexeme stops before a character that it goes on with.** -/
theorem Recognised.not_goesOnWith {kind : Kind} {lexeme rest : List Char}
    (h : Recognised kind lexeme rest) : ∀ c ∈ rest.head?, kind.goesOnWith c = false := by
  intro c hc
  cases h with
  | turnstile => rfl
  | ruleName hname hbreaks => exact hbreaks c hc
  | dashedWord hword hbreaks => exact hbreaks c hc
  | digits hdigits hrest =>
      split
      · exact hrest c hc
      · exact hrest c hc
  | identifier hword hbreaks => exact hbreaks c hc
  | sign hsign hturnstile hdash =>
      rcases goesOnWith_of_sign? hsign with ⟨rfl, hbar⟩ | ⟨rfl, hsign'⟩ | hother
      · refine decide_eq_false fun hstroke => hturnstile ⟨hbar, ?_⟩
        rw [← hstroke]
        exact hc
      · rw [Bool.eq_false_iff]
        intro hletter
        refine hdash ⟨hsign', ?_⟩
        rw [Option.mem_def.mp hc]
        exact hletter
      · exact hother c

/-! ## §3. All tokens of a text. -/

/-- **The tokens tile the text**: each is a part of it that is not empty, they
stand one behind the other, what lies between them has no meaning, and none of
them goes on with the character behind it. -/
structure Tiles (text : List Char) (tokens : List Token) : Prop where
  nonempty : ∀ t ∈ tokens, t.span.start < t.span.stop
  ordered : tokens.Pairwise fun t u => t.span.stop ≤ u.span.start
  marks : ∀ t ∈ tokens, t.span.Marks t.text.toList text
  slice : ∀ t ∈ tokens, t.span.slice text = t.text.toList
  passedOver : ∀ before c after, text = before ++ c :: after →
    (∀ t ∈ tokens, ¬ t.span.Covers (byteLength before)) → IsPassedOver c
  maximal : ∀ t ∈ tokens, ∀ c ∈ (dropBytes t.span.stop text).head?, t.kind.goesOnWith c = false

/-- **The tokens of a text tile it.** -/
theorem tokenize_tiles (text : String) : Tiles text.toList (tokenize text) where
  nonempty t ht := ((scan_ordered 0 text.toList).2 t ht).2
  ordered := (scan_ordered 0 text.toList).1
  marks _ ht := (marks_of_mem_tokenize ht).1
  slice _ ht := Span.slice_of_marks (marks_of_mem_tokenize ht).1
  passedOver before c after htext houtside := by
    have hscan : ∀ t ∈ scan 0 text.toList, ¬ t.span.Covers (0 + byteLength before) := by
      rw [Nat.zero_add]
      exact houtside
    exact isPassedOver_of_scan before htext hscan
  maximal t ht := by
    obtain ⟨front, after, htext, hspan, hlexeme⟩ := exists_lexeme?_of_mem_scan ht [] rfl
    have hbehind : dropBytes t.span.stop text.toList = after := by
      rw [← List.nil_append text.toList, htext, hspan, ← List.append_assoc, ← byteLength_append]
      exact dropBytes_append _ _
    rw [hbehind]
    exact (recognised_of_lexeme? hlexeme).not_goesOnWith

end Token

end NaturalDeduction
