/-
  NaturalDeduction.Proofs.Spacing
  ───────────────────────────────
  **BLANKS BETWEEN TOKENS DO NOT MATTER.**

  A `Spacing` of a text puts a run of blanks at any of its places, but never
  inside a token.  The text can be cut at each of these places, because a cut
  that divides no token leaves the tokens on both sides as they are; and what
  is put in between has no tokens.  So the spaced text has the same words, only
  at other places, and a reader does not look at places.  Main statements:

    • `Token.words_insertRuns` — a spaced text has the same words,
    • `parse_spaced` — it is read as the same formula, or refused with
      the same complaint at the same token.
-/
import NaturalDeduction.Proofs.Grammar
import NaturalDeduction.Proofs.MovedTokens
import NaturalDeduction.Proofs.TokenBoundaries

namespace NaturalDeduction

/-! ## §1. Putting blanks into a text. -/

/-- The text with a run of characters put in at each place; the text starts at
place `n` of the whole. -/
def insertRuns (runs : Nat → List Char) (n : Nat) : List Char → List Char
  | [] => runs n
  | c :: cs => runs n ++ c :: insertRuns runs (n + c.utf8Size) cs

/-- **A way of putting blanks between the tokens of a text**: before the first
one, between two of them or behind the last one. -/
structure Spacing (text : String) where
  /-- The characters that are put in so many bytes into the text. -/
  runs : Nat → List Char
  blank : ∀ n, ∀ c ∈ runs n, isBlank c = true
  outside : ∀ n, runs n ≠ [] → ∀ t ∈ Token.tokenize text, t.span.stop ≤ n ∨ n ≤ t.span.start

/-- The spaced text. -/
def Spacing.apply {text : String} (s : Spacing text) : String :=
  String.ofList (insertRuns s.runs 0 text.toList)

namespace Token

/-! ## §2. The words of a spaced text. -/

/-- Blanks are passed over. -/
theorem words_blanks_append {run : List Char} (hrun : ∀ c ∈ run, isBlank c = true)
    (cs : List Char) : words (run ++ cs) = words cs := by
  induction run with
  | nil => rfl
  | cons c run ih =>
      have hnone : lexeme? (c :: (run ++ cs)) = none := by
        rw [lexeme?, if_pos (hrun c List.mem_cons_self)]
      rw [List.cons_append, words_cons_of_none hnone]
      exact ih fun d hd => hrun d (List.mem_cons_of_mem c hd)

/-- Blanks divide a text. -/
theorem divides_blanks {run : List Char} (hrun : ∀ c ∈ run, isBlank c = true) (hne : run ≠ [])
    (cs : List Char) : Divides (run ++ cs) := by
  cases run with
  | nil => exact absurd rfl hne
  | cons c run =>
      have hblank := hrun c List.mem_cons_self
      intro d hd
      obtain rfl : c = d := Option.some.inj hd
      refine ⟨isNameRest_of_isBlank hblank, ?_, ?_⟩
      · rintro rfl
        exact absurd hblank (by decide)
      · rintro rfl
        exact absurd hblank (by decide)

/-- The words of a text with blanks in it. -/
theorem words_append_blanks {run : List Char} (hrun : ∀ c ∈ run, isBlank c = true)
    (hne : run ≠ []) (as bs : List Char) : words (as ++ (run ++ bs)) = words as ++ words bs := by
  rw [words, scan_append (divides_blanks hrun hne bs), List.map_append, map_word_scan,
    map_word_scan, words_blanks_append hrun]

/-- The words of a text that is cut between tokens. -/
theorem words_append_of_comesTo {as bs : List Char} (h : ComesTo bs as) :
    words (as ++ bs) = words as ++ words bs := by
  rw [words, scan_append_of_comesTo h, List.map_append, map_word_scan, map_word_scan]

/-- **Blanks between tokens leave the words as they are.** -/
theorem words_insertRuns {runs : Nat → List Char} (hblank : ∀ n, ∀ c ∈ runs n, isBlank c = true)
    {offset : Nat} {as cs : List Char}
    (houtside : ∀ n, runs n ≠ [] → ∀ t ∈ scan offset (as ++ cs),
      t.span.stop ≤ n ∨ n ≤ t.span.start) :
    words (as ++ insertRuns runs (offset + byteLength as) cs) = words (as ++ cs) := by
  -- `as` is what was copied since the last run of blanks.
  induction cs generalizing offset as with
  | nil =>
      rw [insertRuns]
      by_cases hrun : runs (offset + byteLength as) = []
      · rw [hrun]
      · have hwords := words_append_blanks (hblank _) hrun as []
        rw [List.append_nil, words_nil, List.append_nil] at hwords
        rw [hwords, List.append_nil]
  | cons c cs ih =>
      rw [insertRuns]
      by_cases hrun : runs (offset + byteLength as) = []
      · have hcopied := @ih offset (as ++ [c]) (by rwa [List.append_assoc])
        rw [byteLength_append, ← Nat.add_assoc, List.append_assoc, List.append_assoc] at hcopied
        rw [hrun]
        exact hcopied
      · have hcomes : ComesTo (c :: cs) as := comesTo_of_uncut offset (houtside _ hrun)
        have hcut := scan_append_of_comesTo hcomes offset
        have hbehind := @ih (offset + byteLength as) [c] fun n hn t ht =>
          houtside n hn t (by rw [hcut]; exact List.mem_append_right _ ht)
        rw [words_append_blanks (hblank _) hrun, words_append_of_comesTo hcomes]
        exact congrArg (words as ++ ·) hbehind

end Token

variable {text : String}

/-- A spaced text has the same words as the text. -/
theorem Spacing.map_word_tokenize (s : Spacing text) :
    (Token.tokenize s.apply).map Token.word = (Token.tokenize text).map Token.word := by
  have hwords := @Token.words_insertRuns s.runs s.blank 0 [] text.toList s.outside
  rw [byteLength_nil] at hwords
  show (Token.scan 0 s.apply.toList).map Token.word = Token.words text.toList
  rw [Token.map_word_scan, Spacing.apply, String.toList_ofList]
  exact hwords

/-- Two texts with the same words have the same tokens, at moved places. -/
theorem Token.exists_move_tokenize {text' : String}
    (h : (tokenize text').map word = (tokenize text).map word) :
    ∃ σ : Span → Span, σ (.emptyAt (byteLength text.toList)) = .emptyAt (byteLength text'.toList)
      ∧ tokenize text' = (tokenize text).map (move σ) := by
  obtain ⟨hordered, hplaces⟩ := scan_ordered 0 text.toList
  refine exists_move _ _ h.symm ?_ ?_
  · refine hordered.imp_of_mem fun {t u} ht hu hbefore heq => ?_
    have hplace := hplaces t ht
    rw [← heq] at hbefore
    omega
  · intro t ht heq
    have hplace := hplaces t ht
    rw [heq] at hplace
    exact absurd hplace.2 (Nat.lt_irrefl _)

/-! ## §3. Reading a spaced text. -/

namespace Formula

/-- **Two texts were read alike**: as the same formula, or with the same
complaint, at tokens that stand at the same place among all, or at the ends of
both texts. -/
inductive ReadAlike (text text' : String) :
    Except Unexpected Formula → Except Unexpected Formula → Prop
  | formula (f : Formula) : ReadAlike text text' (.ok f) (.ok f)
  | token (expected : Expected) {i : Nat} {t t' : Token} :
      (Token.tokenize text)[i]? = some t → (Token.tokenize text')[i]? = some t' →
      ReadAlike text text' (.error ⟨expected, some t.text, t.span⟩)
        (.error ⟨expected, some t.text, t'.span⟩)
  | ending (expected : Expected) :
      ReadAlike text text' (.error ⟨expected, none, .emptyAt (byteLength text.toList)⟩)
        (.error ⟨expected, none, .emptyAt (byteLength text'.toList)⟩)

variable {text' : String} {σ : Span → Span}

/-- A complaint at a place of the one text and at the moved place of the other. -/
theorem readAlike_unexpectedAt
    (hstop : σ (.emptyAt (byteLength text.toList)) = .emptyAt (byteLength text'.toList))
    (htokens : Token.tokenize text' = (Token.tokenize text).map (Token.move σ))
    {rest : List Token} (hrest : rest <:+ Token.tokenize text) (expected : Expected) :
    ReadAlike text text' (.error (Token.unexpectedAt (byteLength text.toList) rest expected))
      (.error ((Token.unexpectedAt (byteLength text.toList) rest expected).move σ)) := by
  cases rest with
  | nil =>
      rw [← Token.unexpectedAt_move hstop]
      exact .ending expected
  | cons t rest =>
      obtain ⟨before, hbefore⟩ := hrest
      have hhere : (Token.tokenize text)[before.length]? = some t := by
        rw [← hbefore]
        simp
      have hthere : (Token.tokenize text')[before.length]? = some (t.move σ) := by
        rw [htokens, List.getElem?_map, hhere]
        rfl
      exact .token expected hhere hthere

/-- **The words of a text decide how it is read.** -/
theorem readAlike_of_words
    (h : (Token.tokenize text').map Token.word = (Token.tokenize text).map Token.word) :
    ReadAlike text text' (parse text) (parse text')
      ∧ ReadAlike text text' (parseExact text) (parseExact text') := by
  obtain ⟨σ, hstop, htokens⟩ := Token.exists_move_tokenize h
  have hmoves := implication_moves hstop (Token.tokenize text)
  rw [← htokens] at hmoves
  unfold parse parseExact
  dsimp only [Cursor.ofText]
  generalize hread : implication (byteLength text.toList) (Token.tokenize text) = r at hmoves ⊢
  generalize implication (byteLength text'.toList) (Token.tokenize text') = r' at hmoves ⊢
  cases hmoves with
  | error e =>
      obtain ⟨used, rest, expected, hused, rfl, -⟩ := implication_inTime hread
      have halike := readAlike_unexpectedAt hstop htokens ⟨used, hused.symm⟩ expected
      exact ⟨halike, halike⟩
  | ok f rest hless hless' =>
      refine ⟨.formula f, ?_⟩
      cases rest with
      | nil => exact .formula f
      | cons t rest =>
          obtain ⟨used, hused, -⟩ := implication_derives hread
          have halike := readAlike_unexpectedAt hstop htokens ⟨used, hused.symm⟩ .endOfFormula
          rw [← Token.unexpectedAt_move hstop] at halike
          exact halike

end Formula

/-- **Blanks between tokens do not matter**: a spaced text has the same tokens but
for their places, and it is read as the same formula or refused with the same
complaint at the same token. -/
theorem parse_spaced (text : String) (s : Spacing text) :
    (Token.tokenize s.apply).map Token.word = (Token.tokenize text).map Token.word
      ∧ Formula.ReadAlike text s.apply (Formula.parse text) (Formula.parse s.apply)
      ∧ Formula.ReadAlike text s.apply (Formula.parseExact text) (Formula.parseExact s.apply) :=
  ⟨s.map_word_tokenize, Formula.readAlike_of_words s.map_word_tokenize⟩

/-- The tab divides what could be taken for the rule `A-e`, and the complaint about the
dashed word moves by its byte. -/
theorem parse_spaced_dashedWord :
    ∃ s : Spacing "A-ex&Q", s.apply = "A\t-ex\n&Q"
      ∧ Formula.ReadAlike "A-ex&Q" s.apply (Formula.parseExact "A-ex&Q")
        (Formula.parseExact s.apply)
      ∧ Formula.parseExact "A-ex&Q" = .error ⟨.endOfFormula, some "-ex", ⟨1, 4⟩⟩
      ∧ Formula.parseExact s.apply = .error ⟨.endOfFormula, some "-ex", ⟨2, 5⟩⟩ := by
  let runs : Nat → List Char := fun n => if n = 1 then ['\t'] else if n = 4 then ['\n'] else []
  have hblank : ∀ n, ∀ c ∈ runs n, isBlank c = true := by
    intro n c hc
    have hcases : c = '\t' ∨ c = '\n' := by
      dsimp only [runs] at hc
      split at hc
      · exact .inl (List.mem_singleton.mp hc)
      · split at hc
        · exact .inr (List.mem_singleton.mp hc)
        · exact absurd hc List.not_mem_nil
    rcases hcases with rfl | rfl
    · decide +kernel
    · decide +kernel
  have houtside : ∀ n, runs n ≠ [] → ∀ t ∈ Token.tokenize "A-ex&Q",
      t.span.stop ≤ n ∨ n ≤ t.span.start := by
    intro n hn
    have hplace : n = 1 ∨ n = 4 := by
      by_contra hneither
      rw [not_or] at hneither
      exact hn (by simp [runs, hneither])
    rcases hplace with rfl | rfl
    · decide +kernel
    · decide +kernel
  have happly : String.ofList (insertRuns runs 0 "A-ex&Q".toList) = "A\t-ex\n&Q" := by
    decide +kernel
  have hcomplaint : Formula.parseExact "A\t-ex\n&Q"
      = .error ⟨.endOfFormula, some "-ex", ⟨2, 5⟩⟩ := by decide +kernel
  refine ⟨⟨runs, hblank, houtside⟩, happly, (parse_spaced _ ⟨runs, hblank, houtside⟩).2.2,
    by decide +kernel, ?_⟩
  rw [← happly] at hcomplaint
  exact hcomplaint

end NaturalDeduction
