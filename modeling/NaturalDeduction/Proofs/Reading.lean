/-
  NaturalDeduction.Proofs.Reading
  ───────────────────────────────
  **WHAT EACH READER DOES, STEP BY STEP.**

  A reader is judged by what it finds and what it leaves (`Yields`), with more
  tokens behind those of the formula: any at all as long as they do not go on
  with it (`Ends`, `Chain.Done`, `Closes`).  There is one lemma for each thing
  that a reader can do; what is read in the end is put together from these
  along the grammar.  The last section says what a whole text is read as, in
  terms of the reader of implications.
-/
import Mathlib.Data.List.Basic
import NaturalDeduction.Formula.Parser

namespace NaturalDeduction.Formula

open Token (nextIs nextIs_cons)

/-! ## §1. Readings that go through. -/

variable {α : Type} (stop : Nat) {tokens rest : List Token}

/-- A reading goes through, finds `value` and leaves `rest`. -/
def Yields (reading : Reading α tokens) (value : α) (rest : List Token) : Prop :=
  ∃ h : rest.length < tokens.length, reading = .ok ⟨value, rest, h⟩

theorem expect_eq_ok {stop : Nat} {kind : Token.Kind} {p : Parsed Token tokens}
    (h : expect stop kind tokens = .ok p) : tokens = p.value :: p.rest ∧ p.value.kind = kind := by
  unfold expect at h
  split at h
  · exact absurd h (by simp)
  · next t behind htaken =>
      obtain ⟨hkind, hahead, -⟩ := Cursor.expect_eq_ok_iff.mp htaken
      rw [← Except.ok.inj h]
      exact ⟨hahead, hkind⟩

theorem expect_eq_error {stop : Nat} {kind : Token.Kind} {e : Unexpected}
    (h : expect stop kind tokens = .error e) :
    e = Token.unexpectedAt stop tokens (.token kind) := by
  unfold expect at h
  split at h
  · next e' he =>
      rw [← Except.error.inj h]
      exact Cursor.expect_eq_error he
  · exact absurd h (by simp)

theorem expect_of_kind {kind : Token.Kind} {t : Token} (h : t.kind = kind) :
    expect stop kind (t :: rest) = .ok ⟨t, rest, Nat.lt_succ_self _⟩ := by
  have hnext : Cursor.expect ⟨t :: rest, stop⟩ kind = .ok (t, ⟨rest, stop⟩) :=
    Cursor.expect_eq_ok_iff.mpr ⟨h, rfl, rfl⟩
  unfold expect
  split
  · next e he => exact absurd (hnext.symm.trans he) (by simp)
  · next u behind hok =>
      obtain ⟨rfl, rfl⟩ := Prod.mk.inj (Except.ok.inj (hnext.symm.trans hok))
      rfl

theorem expect_cons (kind : Token.Kind) (t : Token) :
    expect stop kind (t :: rest)
      = if t.kind = kind then .ok ⟨t, rest, Nat.lt_succ_self _⟩
        else .error (Token.unexpectedAt stop (t :: rest) (.token kind)) := by
  split
  · next h => exact expect_of_kind stop h
  · next h =>
      cases hnext : expect stop kind (t :: rest) with
      | error e => rw [expect_eq_error hnext]
      | ok p =>
          obtain ⟨htokens, hkind⟩ := expect_eq_ok hnext
          rw [← (List.cons.inj htokens).1] at hkind
          exact absurd hkind h

theorem expect_yields {kind : Token.Kind} {t : Token} (h : t.kind = kind) :
    Yields (expect stop kind (t :: rest)) t rest :=
  ⟨_, expect_of_kind stop h⟩

theorem expectTerm_yields {t : Token} (h : t.isTerm = true) :
    Yields (expectTerm stop (t :: rest)) t.text rest := by
  refine ⟨by simp, ?_⟩
  rw [expectTerm, if_pos h]

/-! ## §2. Atoms. -/

/-- Where no comma comes next, the terms are at an end. -/
theorem moreTerms_done (p : Parsed (List Name) tokens) (h : nextIs .comma p.rest = false) :
    moreTerms stop p = .ok p := by
  rw [moreTerms]
  split
  · rfl
  · next t ts hrest =>
      rw [hrest, nextIs_cons, decide_eq_false_iff_not] at h
      rw [if_neg h]

/-- A comma and a term are read as one term more. -/
theorem moreTerms_step (p : Parsed (List Name) tokens) {comma t : Token}
    (hp : p.rest = comma :: t :: rest) (hcomma : comma.kind = .comma) (ht : t.isTerm = true) :
    ∃ h, moreTerms stop p = moreTerms stop ⟨p.value ++ [t.text], rest, h⟩ := by
  have hshorter := p.shorter
  rw [hp, List.length_cons, List.length_cons] at hshorter
  refine ⟨by omega, ?_⟩
  obtain ⟨_, hterm⟩ : Yields (expectTerm stop (t :: rest)) t.text rest := expectTerm_yields stop ht
  conv_lhs => rw [moreTerms]
  split
  · next hnil => rw [hp] at hnil; exact absurd hnil (by simp)
  · next t' ts hcons =>
      rw [hp] at hcons
      obtain ⟨rfl, rfl⟩ := List.cons.inj hcons
      rw [if_pos hcomma, hterm]

/-- What may come after a formula: neither `=` nor `(`. -/
def Ends (rest : List Token) : Prop :=
  nextIs .equals rest = false ∧ nextIs .leftParen rest = false

/-- A `0` is read as falsity. -/
theorem atomic_falsity {t : Token} (ht : t.kind = .falsity) (hrest : Ends rest) :
    Yields (atomic stop (t :: rest)) falsity rest := by
  refine ⟨by simp, ?_⟩
  simp [atomic, hrest.1, ht]

/-- A name is read as an atom without terms. -/
theorem atomic_name {t : Token} (ht : t.kind = .identifier) (hrest : Ends rest) :
    Yields (atomic stop (t :: rest)) (atom t.text []) rest := by
  refine ⟨by simp, ?_⟩
  cases rest with
  | nil => simp [atomic, ht, nextIs]
  | cons u rest =>
      have hnot : u.kind ≠ .leftParen := by simpa using hrest.2
      have heq : u.kind ≠ .equals := by simpa using hrest.1
      simp [atomic, ht, hnot, heq]

/-! ## §3. Joined formulas. -/

/-- What may come after a chain: not its sign. -/
def Chain.Done (c : Chain) (rest : List Token) : Prop := rest.head?.any c.goesOnWith = false

/-- What may come after a formula that is not joined to anything: no sign of a
connective. -/
def Closes (rest : List Token) : Prop :=
  Chain.conjunction.Done rest ∧ Chain.disjunction.Done rest ∧ nextIs .greater rest = false

variable {c : Chain} {f g : Formula} {t : Token} {tokens' : List Token}

theorem Chain.done_cons : c.Done (t :: rest) ↔ c.goesOnWith t = false := Iff.rfl

/-- Only `&` goes on with a conjunction. -/
theorem Chain.done_conjunction (h : t.kind ≠ .ampersand) (rest : List Token) :
    Chain.conjunction.Done (t :: rest) :=
  Chain.done_cons.mpr (decide_eq_false h)

/-- Only a word goes on with a disjunction. -/
theorem Chain.done_disjunction (h : t.kind ≠ .identifier) (rest : List Token) :
    Chain.disjunction.Done (t :: rest) := by
  rw [Chain.done_cons]
  simp [Chain.goesOnWith, Token.isWord, h]

@[simp] theorem part_disjunction :
    part stop .disjunction tokens = chain stop .conjunction tokens := by
  rw [part]

@[simp] theorem part_conjunction : part stop .conjunction tokens = unary stop tokens := by
  rw [part]

theorem moreParts_done (p : Parsed Formula tokens) (h : c.Done p.rest) :
    moreParts stop c p = .ok p := by
  rw [moreParts]
  split
  · rfl
  · next t ts hrest =>
      rw [hrest, Chain.done_cons] at h
      rw [if_neg (by rw [h]; exact Bool.false_ne_true)]

/-- What is left by a reading behind a token is shorter still. -/
theorem shorter_behind (h : (t :: rest).length < tokens.length) (right : Parsed Formula rest) :
    right.rest.length < tokens.length :=
  Nat.lt_trans right.shorter (Nat.lt_of_succ_lt h)

/-- The sign of a chain is followed by one part more. -/
theorem moreParts_cons (h : (t :: rest).length < tokens.length) (ht : c.goesOnWith t = true) :
    moreParts stop c (⟨f, t :: rest, h⟩ : Parsed Formula tokens)
      = match part stop c rest with
        | .error e => .error e
        | .ok right => moreParts stop c ⟨join c.connective f right.value, right.rest,
            shorter_behind h right⟩ := by
  rw [moreParts]
  split
  · next hnil => exact absurd hnil (by simp)
  · next u us hcons =>
      obtain ⟨rfl, rfl⟩ := List.cons.inj hcons
      exact if_pos ht

/-- No implication. -/
theorem implication_single (hf : Yields (chain stop .disjunction tokens) f rest)
    (hrest : nextIs .greater rest = false) : Yields (implication stop tokens) f rest := by
  obtain ⟨hlt, heq⟩ := hf
  refine ⟨hlt, ?_⟩
  rw [implication, heq]
  dsimp only
  split
  · rfl
  · next u ts =>
      rw [nextIs_cons, decide_eq_false_iff_not] at hrest
      rw [if_neg hrest]

/-- An implication. -/
theorem implication_pair (hf : Yields (chain stop .disjunction tokens) f (t :: tokens'))
    (ht : t.kind = .greater) (hg : Yields (implication stop tokens') g rest) :
    Yields (implication stop tokens) (imp f g) rest := by
  obtain ⟨hlt, heq⟩ := hf
  obtain ⟨hlt', heq'⟩ := hg
  have hlt'' := hlt
  rw [List.length_cons] at hlt''
  refine ⟨by omega, ?_⟩
  rw [implication, heq]
  dsimp only
  rw [if_pos ht, heq']

/-! ## §4. All formulas. -/

/-- The word of a quantifier before a parenthesis is a quantifier. -/
theorem quantifier?_eq_some {quantifier : Quantifier} (ht : t.isWord quantifier.word = true)
    (hnext : nextIs .leftParen tokens = true) : quantifier? t tokens = some quantifier := by
  simp only [Token.isWord, Bool.and_eq_true, decide_eq_true_eq] at ht
  obtain ⟨hkind, htext⟩ := ht
  unfold quantifier? Token.isWord
  rw [if_pos hnext, hkind, htext]
  cases quantifier with
  | all => decide
  | ex => decide

/-- Anything else is not. -/
theorem quantifier?_eq_none
    (h : nextIs .leftParen tokens = false ∨ t.kind ≠ .identifier
      ∨ (t.text ≠ Quantifier.all.word ∧ t.text ≠ Quantifier.ex.word)) :
    quantifier? t tokens = none := by
  unfold quantifier? Token.isWord
  rcases h with hnext | hkind | ⟨hall, hex⟩
  · simp [hnext]
  · simp [hkind]
  · simp [hall, hex]

/-- A formula that starts like an atom is one. -/
theorem unary_atomic (hf : Yields (atomic stop (t :: tokens)) f rest)
    (hkind : t.kind ≠ .tilde ∧ t.kind ≠ .leftParen) (hnone : quantifier? t tokens = none) :
    Yields (unary stop (t :: tokens)) f rest := by
  obtain ⟨hlt, heq⟩ := hf
  refine ⟨hlt, ?_⟩
  rw [unary, if_neg hkind.1, hnone]
  dsimp only
  rw [if_neg hkind.2, heq]

theorem unary_neg (ht : t.kind = .tilde) (hf : Yields (unary stop tokens) f rest) :
    Yields (unary stop (t :: tokens)) (neg f) rest := by
  obtain ⟨hlt, heq⟩ := hf
  refine ⟨by simp only [List.length_cons]; omega, ?_⟩
  rw [unary, if_pos ht, heq]

theorem unary_paren {close : Token} (ht : t.kind = .leftParen)
    (hf : Yields (implication stop tokens) f (close :: rest)) (hclose : close.kind = .rightParen) :
    Yields (unary stop (t :: tokens)) f rest := by
  obtain ⟨hlt, heq⟩ := hf
  have hlt' := hlt
  rw [List.length_cons] at hlt'
  obtain ⟨_, heq'⟩ : Yields (expect stop .rightParen (close :: rest)) close rest :=
    expect_yields stop hclose
  have hnone : quantifier? t tokens = none :=
    quantifier?_eq_none (Or.inr (Or.inl (by rw [ht]; decide)))
  refine ⟨by simp only [List.length_cons]; omega, ?_⟩
  rw [unary, if_neg (by rw [ht]; decide), hnone]
  dsimp only
  rw [if_pos ht, heq]
  dsimp only
  rw [heq']

theorem boundVariable_yields {opening var close : Token} (hopening : opening.kind = .leftParen)
    (hvar : var.kind = .identifier) (hclose : close.kind = .rightParen) :
    Yields (boundVariable stop (opening :: var :: close :: rest)) var.text rest := by
  refine ⟨by simp only [List.length_cons]; omega, ?_⟩
  simp [boundVariable, expect_of_kind, hopening, hvar, hclose]

theorem unary_bind {quantifier : Quantifier} {var : Name}
    (hq : quantifier? t tokens = some quantifier) (hkind : t.kind = .identifier)
    (hvar : Yields (boundVariable stop tokens) var tokens')
    (hf : Yields (unary stop tokens') f rest) :
    Yields (unary stop (t :: tokens)) (bind quantifier var f) rest := by
  obtain ⟨hlt, heq⟩ := hvar
  obtain ⟨hlt', heq'⟩ := hf
  refine ⟨by simp only [List.length_cons]; omega, ?_⟩
  rw [unary, if_neg (by rw [hkind]; decide), hq]
  dsimp only
  rw [heq]
  dsimp only
  rw [heq']

/-- Terms start neither with `~` nor with `(`. -/
theorem kind_of_isTerm (h : t.isTerm = true) : t.kind ≠ .tilde ∧ t.kind ≠ .leftParen := by
  unfold Token.isTerm at h
  simp only [Bool.or_eq_true, decide_eq_true_eq] at h
  rcases h with (h | h) | h <;> rw [h] <;> decide

theorem ends_cons (h : t.kind ≠ .equals ∧ t.kind ≠ .leftParen) (rest : List Token) :
    Ends (t :: rest) := by
  simp [Ends, h.1, h.2]

theorem closes_cons (h : t.kind = .rightParen) (rest : List Token) : Closes (t :: rest) := by
  refine ⟨Chain.done_conjunction ?_ rest, Chain.done_disjunction ?_ rest, ?_⟩
  · rw [h]
    decide
  · rw [h]
    decide
  · rw [nextIs_cons, h]
    rfl

/-! ## §5. Whole texts. -/

variable {text : String} {e : Unexpected}

/-- What is read from the front of a text is read by the reader of
implications. -/
theorem parse_eq_ok (h : parse text = .ok f) :
    ∃ p, implication (byteLength text.toList) (Token.tokenize text) = .ok p ∧ p.value = f := by
  unfold parse at h
  dsimp only [Cursor.ofText] at h
  split at h
  · exact absurd h (by simp)
  · next p hp => exact ⟨p, hp, Except.ok.inj h⟩

/-- What is read of a whole text is read by it and leaves nothing. -/
theorem parseExact_eq_ok_iff :
    parseExact text = .ok f
      ↔ Yields (implication (byteLength text.toList) (Token.tokenize text)) f [] := by
  unfold parseExact
  dsimp only [Cursor.ofText]
  constructor
  · intro h
    split at h
    · exact absurd h (by simp)
    · next parsed hparsed =>
        split at h
        · next hempty =>
            have hnil : parsed.rest = [] := List.isEmpty_iff.mp hempty
            refine ⟨hnil ▸ parsed.shorter, ?_⟩
            rw [hparsed, ← Except.ok.inj h]
            simp [← hnil]
        · exact absurd h (by simp)
  · rintro ⟨hlt, heq⟩
    rw [heq]
    rfl

theorem parse_eq_error (h : parse text = .error e) :
    implication (byteLength text.toList) (Token.tokenize text) = .error e := by
  unfold parse at h
  dsimp only [Cursor.ofText] at h
  split at h
  · next e' he => rwa [Except.error.inj h] at he
  · exact absurd h (by simp)

/-- A whole text is refused by the reader, or for what stands behind the formula
that was read. -/
theorem parseExact_eq_error (h : parseExact text = .error e) :
    implication (byteLength text.toList) (Token.tokenize text) = .error e
      ∨ ∃ p, implication (byteLength text.toList) (Token.tokenize text) = .ok p
        ∧ e = Token.unexpectedAt (byteLength text.toList) p.rest .endOfFormula := by
  unfold parseExact at h
  dsimp only [Cursor.ofText] at h
  split at h
  · next e' he =>
      rw [Except.error.inj h] at he
      exact .inl he
  · next p hp =>
      split at h
      · exact absurd h (by simp)
      · exact .inr ⟨p, hp, (Except.error.inj h).symm⟩

end NaturalDeduction.Formula
