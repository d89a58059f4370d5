/-
  NaturalDeduction.Proofs.GrammarReading
  ──────────────────────────────────────
  **THE READERS DECIDE THE GRAMMAR.**

  A reader commits itself after one or two tokens and never goes back, so it
  has to be shown that no choice loses a derivation.  Main statements:

    • `Derives.reaches` — whatever is derived is read, as far as what comes
      next does not go on with it,
    • `Derives.covers` — whatever comes next, no reading stops earlier.

  So a whole text is read as a formula exactly if its tokens derive it, and
  what is read from the front of a text comes from the longest part of it that
  derives anything.
-/
import NaturalDeduction.Proofs.Grammar

namespace NaturalDeduction.Formula

open Token (nextIs_cons)

variable {stop : Nat} {tokens rest : List Token}

/-! ## §1. What is derived is read: atoms. -/

/-- Two terms around a `=` are read as an identity, whatever comes next. -/
theorem atomic_terms {left sign right : Token} (hl : left.isTerm = true)
    (hsign : sign.kind = .equals) (hr : right.isTerm = true) :
    Yields (atomic stop (left :: sign :: right :: rest)) (identity left.text right.text) rest := by
  refine ⟨by simp only [List.length_cons]; omega, ?_⟩
  simp [atomic, identityAtom, expectTerm, expect_of_kind, hl, hr, hsign]

/-- With the first term of a list in hand, the reader goes on to the last. -/
theorem DerivesTerms.reaches {ts : List Token} {names : List Name} (h : DerivesTerms ts names)
    (stop : Nat) (rest : List Token) :
    ∃ first hlt, expectTerm stop (ts ++ rest) = .ok first
      ∧ moreTerms stop ⟨[first.value], first.rest, first.shorter⟩
        = moreTerms stop (⟨names, rest, hlt⟩ : Parsed (List Name) (ts ++ rest)) := by
  induction h generalizing rest with
  | @one t ht =>
      obtain ⟨hlt, hterm⟩ : Yields (expectTerm stop (t :: rest)) t.text rest :=
        expectTerm_yields stop ht
      exact ⟨⟨t.text, rest, hlt⟩, hlt, hterm, rfl⟩
  | @more ts names comma t _ hcomma ht ih =>
      rw [List.append_assoc]
      show ∃ first hlt, expectTerm stop (ts ++ comma :: t :: rest) = .ok first
        ∧ moreTerms stop ⟨[first.value], first.rest, first.shorter⟩
          = moreTerms stop ⟨names ++ [t.text], rest, hlt⟩
      obtain ⟨first, hlt, hfirst, hmore⟩ := ih (comma :: t :: rest)
      obtain ⟨hlt', hstep⟩ := moreTerms_step stop
        (⟨names, comma :: t :: rest, hlt⟩ : Parsed (List Name) (ts ++ comma :: t :: rest))
        rfl hcomma ht
      exact ⟨first, hlt', hfirst, hmore.trans hstep⟩

/-- The terms of an atom are read with the parenthesis behind them. -/
theorem DerivesArguments.yields {ts : List Token} {names : List Name}
    (h : DerivesArguments ts names) {close : Token} (hclose : close.kind = .rightParen) :
    Yields (arguments stop (ts ++ close :: rest)) names rest := by
  obtain ⟨hend, heqEnd⟩ : Yields (expect stop .rightParen (close :: rest)) close rest :=
    expect_yields stop hclose
  cases h with
  | none =>
      have hnot : close.isTerm = false := by simp [Token.isTerm, hclose]
      refine ⟨hend, ?_⟩
      show arguments stop (close :: rest) = _
      unfold arguments
      rw [if_neg (by simp [hnot]), heqEnd]
  | some hterms =>
      obtain ⟨first, hlt, hfirst, hmore⟩ := hterms.reaches stop (close :: rest)
      obtain ⟨_, htokens, t, rfl, ht, -⟩ := (expectTerm_accounts stop _).of_ok hfirst
      have hnext : (ts ++ close :: rest).head?.any Token.isTerm = true := by
        rw [htokens]
        exact ht
      have hdone := moreTerms_done stop
        (⟨names, close :: rest, hlt⟩ : Parsed (List Name) (ts ++ close :: rest))
        (by rw [nextIs_cons, hclose]; rfl)
      refine ⟨Nat.lt_trans (Nat.lt_succ_self _) hlt, ?_⟩
      unfold arguments
      rw [if_pos hnext, hfirst]
      dsimp only
      rw [hmore, hdone]
      dsimp only
      rw [heqEnd]

/-- A name with its terms is read, whatever comes next. -/
theorem atomic_apply {ts : List Token} {names : List Name} {t opening close : Token}
    (ht : t.kind = .identifier) (hopening : opening.kind = .leftParen)
    (hargs : DerivesArguments ts names) (hclose : close.kind = .rightParen) :
    Yields (atomic stop (t :: opening :: (ts ++ close :: rest))) (atom t.text names) rest := by
  obtain ⟨hlt, heq⟩ : Yields (arguments stop (ts ++ close :: rest)) names rest :=
    hargs.yields hclose
  refine ⟨by simp only [List.length_cons]; omega, ?_⟩
  simp [atomic, ht, hopening, heq]

/-! ## §2. What is derived is read: all formulas. -/

/-- What comes after the last part of a chain does not go on with that part. -/
def Chain.PartDone : Chain → List Token → Prop
  | disjunction, rest => conjunction.Done rest
  | conjunction, _ => True

/-- A reader of a chain gathers `f` from the tokens `ts`.  The parts are
collected from the left, so it is left open whether another one follows. -/
def Chain.Gathers (stop : Nat) (ts : List Token) (f : Formula) (c : Chain) : Prop :=
  ∀ rest, Ends rest → c.PartDone rest → ∃ h, chain stop c (ts ++ rest)
    = moreParts stop c (⟨f, rest, h⟩ : Parsed Formula (ts ++ rest))

/-- A reader gets behind the tokens `ts` with the formula `f` in hand, unless
what comes next goes on with it. -/
def Reaches (stop : Nat) (ts : List Token) (f : Formula) : Level → Prop
  | .implication => ∀ rest, Ends rest → Closes rest → Yields (implication stop (ts ++ rest)) f rest
  | .disjunction => Chain.disjunction.Gathers stop ts f
  | .conjunction => Chain.conjunction.Gathers stop ts f
  | .unary | .primary => ∀ rest, Ends rest → Yields (unary stop (ts ++ rest)) f rest

variable {c : Chain}

theorem Chain.Gathers.yields {ts : List Token} {f : Formula} (h : c.Gathers stop ts f)
    (hends : Ends rest) (hpart : c.PartDone rest) (hdone : c.Done rest) :
    Yields (chain stop c (ts ++ rest)) f rest := by
  obtain ⟨hlt, heq⟩ := h rest hends hpart
  exact ⟨hlt, heq.trans (moreParts_done stop _ hdone)⟩

/-- A part of a chain is read, if what comes next does not go on with it. -/
theorem part_yields {ts : List Token} {f : Formula} (h : Reaches stop ts f c.partLevel)
    (hends : Ends rest) (hpart : c.PartDone rest) :
    Yields (part stop c (ts ++ rest)) f rest := by
  cases c with
  | disjunction =>
      rw [part_disjunction]
      exact Chain.Gathers.yields h hends trivial hpart
  | conjunction =>
      rw [part_conjunction]
      exact h rest hends

/-- One part is a chain. -/
theorem Chain.gathers_part {ts : List Token} {f : Formula} (h : Reaches stop ts f c.partLevel) :
    c.Gathers stop ts f := by
  intro rest hends hpart
  obtain ⟨hlt, heq⟩ := part_yields h hends hpart
  exact ⟨hlt, by rw [chain, heq]⟩

/-- The sign of a chain goes on with nothing before it but the chain. -/
theorem Chain.ends_of_goesOnWith {t : Token} (ht : c.goesOnWith t = true) (rest : List Token) :
    Ends (t :: rest) ∧ c.PartDone (t :: rest) := by
  cases c with
  | disjunction =>
      unfold Chain.goesOnWith Token.isWord at ht
      simp only [Bool.and_eq_true, decide_eq_true_eq] at ht
      exact ⟨ends_cons (by rw [ht.1]; decide) rest,
        Chain.done_conjunction (by rw [ht.1]; decide) rest⟩
  | conjunction =>
      have hkind : t.kind = .ampersand := of_decide_eq_true ht
      exact ⟨ends_cons (by rw [hkind]; decide) rest, trivial⟩

/-- A chain goes on behind its sign. -/
theorem Chain.Gathers.behind_sign {ts : List Token} {f : Formula} {t : Token}
    (h : c.Gathers stop ts f) (ht : c.goesOnWith t = true) (rest : List Token) :
    ∃ hlt : (t :: rest).length < (ts ++ t :: rest).length, chain stop c (ts ++ t :: rest)
      = match part stop c rest with
        | .error e => .error e
        | .ok right => moreParts stop c
            (⟨join c.connective f right.value, right.rest, shorter_behind hlt right⟩ :
              Parsed Formula (ts ++ t :: rest)) := by
  obtain ⟨hends, hpart⟩ := ends_of_goesOnWith ht rest
  obtain ⟨hlt, heq⟩ := h (t :: rest) hends hpart
  exact ⟨hlt, heq.trans (moreParts_cons stop hlt ht)⟩

/-- A chain with one part more is a chain. -/
theorem Chain.gathers_onePartMore {ts us : List Token} {f g : Formula} {t : Token}
    (hf : c.Gathers stop ts f) (ht : c.goesOnWith t = true) (hg : Reaches stop us g c.partLevel) :
    c.Gathers stop (ts ++ t :: us) (join c.connective f g) := by
  intro rest hends hpart
  rw [List.append_assoc, List.cons_append]
  obtain ⟨hlt, heq⟩ := hf.behind_sign ht (us ++ rest)
  obtain ⟨hlt', heq'⟩ := part_yields hg hends hpart
  rw [List.length_cons] at hlt
  refine ⟨by omega, ?_⟩
  rw [heq, heq']

/-- Before a `>` a disjunction is at its end. -/
theorem disjunction_before_greater {ts : List Token} {f : Formula} {t : Token}
    (h : Chain.disjunction.Gathers stop ts f) (ht : t.kind = .greater) :
    Yields (chain stop .disjunction (ts ++ t :: rest)) f (t :: rest) := by
  apply h.yields
  · exact ends_cons (by rw [ht]; decide) rest
  · exact Chain.done_conjunction (by rw [ht]; decide) rest
  · exact Chain.done_disjunction (by rw [ht]; decide) rest

/-- In parentheses a formula is read to the end. -/
theorem unary_of_reaches {ts : List Token} {f : Formula} {opening close : Token}
    (h : Reaches stop ts f .implication) (hopening : opening.kind = .leftParen)
    (hclose : close.kind = .rightParen) :
    Yields (unary stop (opening :: (ts ++ close :: rest))) f rest := by
  have hends : Ends (close :: rest) := ends_cons (by rw [hclose]; decide) rest
  exact unary_paren stop hopening (h (close :: rest) hends (closes_cons hclose rest)) hclose

/-- The word of a quantifier before a parenthesis is taken for one. -/
theorem quantifier?_of_isWord {t opening : Token} {quantifier : Quantifier}
    (ht : t.isWord quantifier.word = true) (hopening : opening.kind = .leftParen) :
    t.kind = .identifier ∧ quantifier? t (opening :: rest) = some quantifier := by
  refine ⟨?_, quantifier?_eq_some ht ?_⟩
  · rw [Token.isWord, Bool.and_eq_true, decide_eq_true_eq] at ht
    exact ht.1
  · rw [nextIs_cons, hopening]
    rfl

/-- An identity is read to its second term, whatever comes next. -/
theorem unary_terms {left sign right : Token} (hl : left.isTerm = true)
    (hsign : sign.kind = .equals) (hr : right.isTerm = true) :
    Yields (unary stop (left :: sign :: right :: rest)) (identity left.text right.text) rest := by
  have hnone : quantifier? left (sign :: right :: rest) = none :=
    quantifier?_eq_none (Or.inl (by rw [nextIs_cons, hsign]; rfl))
  exact unary_atomic stop (atomic_terms hl hsign hr) (kind_of_isTerm hl) hnone

/-- A name with its terms is read to the parenthesis, whatever comes next. -/
theorem unary_apply {ts : List Token} {names : List Name} {t opening close : Token}
    (ht : t.kind = .identifier) (hall : t.text ≠ Quantifier.all.word)
    (hex : t.text ≠ Quantifier.ex.word) (hopening : opening.kind = .leftParen)
    (hargs : DerivesArguments ts names) (hclose : close.kind = .rightParen) :
    Yields (unary stop (t :: opening :: (ts ++ close :: rest))) (atom t.text names) rest :=
  unary_atomic stop (atomic_apply ht hopening hargs hclose) (by rw [ht]; decide)
    (quantifier?_eq_none (Or.inr (Or.inr ⟨hall, hex⟩)))

/-- **Whatever is derived is read**, as far as what comes next does not go on
with it. -/
theorem Derives.reaches {level : Level} {ts : List Token} {f : Formula}
    (h : Derives level ts f) (stop : Nat) : Reaches stop ts f level := by
  induction h with
  | ofDisjunction _ ih =>
      intro rest hends hcloses
      exact implication_single stop (Chain.Gathers.yields ih hends hcloses.1 hcloses.2.1)
        hcloses.2.2
  | @imp ts us t f g _ ht _ ihl ihr =>
      intro rest hends hcloses
      rw [List.append_assoc, List.cons_append]
      exact implication_pair stop (disjunction_before_greater ihl ht) ht (ihr rest hends hcloses)
  | ofConjunction _ ih => exact Chain.disjunction.gathers_part ih
  | disj _ ht _ ihl ihr => exact Chain.disjunction.gathers_onePartMore ihl ht ihr
  | ofUnary _ ih => exact Chain.conjunction.gathers_part ih
  | conj _ ht _ ihl ihr =>
      exact Chain.conjunction.gathers_onePartMore ihl (decide_eq_true ht) ihr
  | ofPrimary _ ih => exact ih
  | neg ht _ ih =>
      intro rest hends
      exact unary_neg stop ht (ih rest hends)
  | @bind ts t opening x close f quantifier ht hopening hx hclose _ ih =>
      intro rest hends
      obtain ⟨hkind, hq⟩ := quantifier?_of_isWord ht hopening
      exact unary_bind stop hq hkind (boundVariable_yields stop hopening hx hclose)
        (ih rest hends)
  | @paren ts opening close f hopening _ hclose ih =>
      intro rest _
      rw [List.cons_append, List.append_assoc]
      exact unary_of_reaches ih hopening hclose
  | @falsity t ht =>
      intro rest hends
      have hnone : quantifier? t rest = none :=
        quantifier?_eq_none (Or.inr (Or.inl (by rw [ht]; decide)))
      exact unary_atomic stop (atomic_falsity stop ht hends) (by rw [ht]; decide) hnone
  | identity hl hsign hr =>
      intro rest _
      exact unary_terms hl hsign hr
  | @name t ht =>
      intro rest hends
      exact unary_atomic stop (atomic_name stop ht hends) (by rw [ht]; decide)
        (quantifier?_eq_none (Or.inl hends.2))
  | @apply ts t opening close names ht hall hex hopening hargs hclose =>
      intro rest _
      rw [List.cons_append, List.cons_append, List.append_assoc]
      exact unary_apply ht hall hex hopening hargs hclose

/-! ## §3. No reading stops early. -/

/-- A reading that goes through leaves no more than `rest`. -/
def Covers {tokens : List Token} (reading : Reading Formula tokens) (rest : List Token) : Prop :=
  ∀ p, reading = .ok p → p.rest.length ≤ rest.length

theorem Yields.covers {reading : Reading Formula tokens} {f : Formula}
    (h : Yields reading f rest) : Covers reading rest := by
  obtain ⟨hlt, heq⟩ := h
  intro p hp
  rw [heq] at hp
  obtain rfl := Except.ok.inj hp
  exact Nat.le_refl _

/-- Every reading uses a token. -/
theorem covers_tail {t : Token} (reading : Reading Formula (t :: rest)) : Covers reading rest := by
  intro p _
  have hshorter := p.shorter
  rw [List.length_cons] at hshorter
  omega

theorem moreParts_covers (p : Parsed Formula tokens) (h : p.rest.length ≤ rest.length) :
    Covers (moreParts stop c p) rest := by
  intro q hq
  obtain ⟨used, hused, -⟩ := (moreParts_accounts stop c p).of_ok hq
  rw [hused, List.length_append] at h
  omega

/-- A chain covers what its first part covers. -/
theorem chain_covers (h : Covers (part stop c tokens) rest) :
    Covers (chain stop c tokens) rest := by
  intro p hp
  rw [chain] at hp
  split at hp
  · exact absurd hp (by simp)
  · next left hleft => exact moreParts_covers left (h left hleft) p hp

/-- A chain covers what the part behind a sign covers. -/
theorem chain_covers_onePartMore {ts us : List Token} {f : Formula} {t : Token}
    (hf : c.Gathers stop ts f) (ht : c.goesOnWith t = true)
    (hg : Covers (part stop c (us ++ rest)) rest) :
    Covers (chain stop c ((ts ++ t :: us) ++ rest)) rest := by
  rw [List.append_assoc, List.cons_append]
  obtain ⟨hlt, heq⟩ := hf.behind_sign ht (us ++ rest)
  intro p hp
  rw [heq] at hp
  split at hp
  · exact absurd hp (by simp)
  · next right hright =>
      refine moreParts_covers _ ?_ p hp
      exact hg right hright

/-- The reader of a level.  What is primary is read as a formula without a
sign before it. -/
def reader (stop : Nat) : Level → (tokens : List Token) → Reading Formula tokens
  | .implication => implication stop
  | .disjunction => chain stop .disjunction
  | .conjunction => chain stop .conjunction
  | .unary => unary stop
  | .primary => unary stop

/-- **Where something is derived, no reading stops earlier**, whatever comes
next. -/
theorem Derives.covers {level : Level} {ts : List Token} {f : Formula}
    (h : Derives level ts f) (stop : Nat) (rest : List Token) :
    Covers (reader stop level (ts ++ rest)) rest := by
  -- What comes before a sign is read to the end; only the last part can go on.
  induction h generalizing rest with
  | @ofDisjunction ts f _ ih =>
      intro p hp
      have hp' : implication stop (ts ++ rest) = .ok p := hp
      rw [implication] at hp'
      split at hp'
      · exact absurd hp' (by simp)
      · next left hleft =>
          have hle := ih rest left hleft
          split at hp'
          · rw [← Except.ok.inj hp']
            exact hle
          · next t us hcons =>
              split at hp'
              · split at hp'
                · exact absurd hp' (by simp)
                · next right hright =>
                    have hshorter := right.shorter
                    rw [hcons, List.length_cons] at hle
                    rw [← Except.ok.inj hp']
                    show right.rest.length ≤ rest.length
                    omega
              · rw [← Except.ok.inj hp']
                exact hle
  | @imp ts us t f g hleft ht _ _ ih =>
      rw [List.append_assoc, List.cons_append]
      obtain ⟨hlt, heq⟩ : Yields (chain stop .disjunction (ts ++ t :: (us ++ rest))) f
          (t :: (us ++ rest)) :=
        disjunction_before_greater (hleft.reaches stop) ht
      intro p hp
      have hp' : implication stop (ts ++ t :: (us ++ rest)) = .ok p := hp
      rw [implication, heq] at hp'
      dsimp only at hp'
      rw [if_pos ht] at hp'
      split at hp'
      · exact absurd hp' (by simp)
      · next right hright =>
          rw [← Except.ok.inj hp']
          exact ih rest right hright
  | @ofConjunction ts f _ ih =>
      have hpart : Covers (part stop .disjunction (ts ++ rest)) rest := by
        rw [part_disjunction]
        exact ih rest
      exact chain_covers hpart
  | @disj ts us t f g hleft ht _ _ ih =>
      have hpart : Covers (part stop .disjunction (us ++ rest)) rest := by
        rw [part_disjunction]
        exact ih rest
      exact chain_covers_onePartMore (hleft.reaches stop) ht hpart
  | @ofUnary ts f _ ih =>
      have hpart : Covers (part stop .conjunction (ts ++ rest)) rest := by
        rw [part_conjunction]
        exact ih rest
      exact chain_covers hpart
  | @conj ts us t f g hleft ht _ _ ih =>
      have hpart : Covers (part stop .conjunction (us ++ rest)) rest := by
        rw [part_conjunction]
        exact ih rest
      exact chain_covers_onePartMore (hleft.reaches stop) (decide_eq_true ht) hpart
  | ofPrimary _ ih => exact ih rest
  | @neg ts t f ht _ ih =>
      intro p hp
      have hp' : unary stop (t :: (ts ++ rest)) = .ok p := hp
      rw [unary, if_pos ht] at hp'
      split at hp'
      · exact absurd hp' (by simp)
      · next inner hinner =>
          rw [← Except.ok.inj hp']
          exact ih rest inner hinner
  | @bind ts t opening x close f quantifier ht hopening hx hclose _ ih =>
      intro p hp
      have hp' : unary stop (t :: opening :: x :: close :: (ts ++ rest)) = .ok p := hp
      obtain ⟨hlt, hvar⟩ : Yields (boundVariable stop (opening :: x :: close :: (ts ++ rest)))
        x.text (ts ++ rest) := boundVariable_yields stop hopening hx hclose
      obtain ⟨hkind, hq⟩ : t.kind = .identifier
          ∧ quantifier? t (opening :: x :: close :: (ts ++ rest)) = some quantifier :=
        quantifier?_of_isWord ht hopening
      rw [unary, if_neg (by rw [hkind]; decide), hq] at hp'
      dsimp only at hp'
      rw [hvar] at hp'
      dsimp only at hp'
      split at hp'
      · exact absurd hp' (by simp)
      · next body hbody =>
          rw [← Except.ok.inj hp']
          exact ih rest body hbody
  | @paren ts opening close f hopening hinner hclose _ =>
      rw [List.cons_append, List.append_assoc]
      exact (unary_of_reaches (hinner.reaches stop) hopening hclose).covers
  | falsity _ => exact covers_tail _
  | identity hl hsign hr => exact (unary_terms hl hsign hr).covers
  | name _ => exact covers_tail _
  | @apply ts t opening close names ht hall hex hopening hargs hclose =>
      rw [List.cons_append, List.cons_append, List.append_assoc]
      exact (unary_apply ht hall hex hopening hargs hclose).covers

/-! ## §4. Whole texts. -/

/-- **All tokens are read as a formula exactly if they derive it.** -/
theorem implication_yields_iff_derives (stop : Nat) {f : Formula} :
    Yields (implication stop tokens) f [] ↔ Derives .implication tokens f := by
  constructor
  · rintro ⟨hlt, heq⟩
    obtain ⟨used, hused, hderives⟩ := implication_derives heq
    have htokens : tokens = used := hused.trans (List.append_nil used)
    rw [htokens]
    exact hderives
  · intro hderives
    have hyields := hderives.reaches stop [] ⟨rfl, rfl⟩ ⟨rfl, rfl, rfl⟩
    rwa [List.append_nil] at hyields

/-- Tokens derive one formula at most. -/
theorem Derives.unique {f g : Formula} (hf : Derives .implication tokens f)
    (hg : Derives .implication tokens g) : f = g := by
  obtain ⟨_, heqf⟩ := (implication_yields_iff_derives 0).mpr hf
  obtain ⟨_, heqg⟩ := (implication_yields_iff_derives 0).mpr hg
  have hsame := Except.ok.inj (heqf.symm.trans heqg)
  exact congrArg Parsed.value hsame

/-- **The readers decide the grammar.**  A whole text is read as a formula
exactly if its tokens derive it, and then they derive no other.  What is read
from the front of a text is derived by the tokens used for it, and no longer
part of the front derives anything. -/
theorem parse_decides_grammar (text : String) :
    (∀ f, parseExact text = .ok f ↔ Derives .implication (Token.tokenize text) f)
      ∧ (∀ f g, Derives .implication (Token.tokenize text) f →
          Derives .implication (Token.tokenize text) g → f = g)
      ∧ ∀ f, parse text = .ok f → ∃ used, used <+: Token.tokenize text
          ∧ Derives .implication used f
          ∧ ∀ longer, longer <+: Token.tokenize text → used.length < longer.length →
              ∀ g, ¬ Derives .implication longer g := by
  refine ⟨fun f => parseExact_eq_ok_iff.trans (implication_yields_iff_derives _),
    fun f g => Derives.unique, fun f h => ?_⟩
  obtain ⟨p, hp, rfl⟩ := parse_eq_ok h
  obtain ⟨used, hused, hderives⟩ := implication_derives hp
  refine ⟨used, ⟨p.rest, hused.symm⟩, hderives, ?_⟩
  rintro longer ⟨rest, hlonger⟩ hlt g hg
  -- A longer derivation would have been covered by the reading.
  have hcovers := hg.covers (byteLength text.toList) rest
  rw [hlonger] at hcovers
  have hle := hcovers p hp
  have hlength := congrArg List.length (hlonger.trans hused)
  rw [List.length_append, List.length_append] at hlength
  omega

/-- `v` is a name or a sign by its place, and a parenthesis that was never
opened ends what is read. -/
theorem parse_decides_grammar_words :
    (∀ g, Derives .implication (Token.tokenize "v v v") g → disj (atom "v" []) (atom "v" []) = g)
      ∧ ∃ used, used <+: Token.tokenize "P > Q v R = S) & T"
          ∧ Derives .implication used
              (imp (atom "P" []) (disj (atom "Q" []) (identity "R" "S")))
          ∧ ∀ longer, longer <+: Token.tokenize "P > Q v R = S) & T" →
              used.length < longer.length → ∀ g, ¬ Derives .implication longer g := by
  obtain ⟨hexact, hfront⟩ : parseExact "v v v" = .ok (disj (atom "v" []) (atom "v" []))
      ∧ parse "P > Q v R = S) & T"
        = .ok (imp (atom "P" []) (disj (atom "Q" []) (identity "R" "S"))) := by decide +kernel
  obtain ⟨hiff, hunique, -⟩ := parse_decides_grammar "v v v"
  exact ⟨fun g => hunique _ g ((hiff _).mp hexact), (parse_decides_grammar _).2.2 _ hfront⟩

end NaturalDeduction.Formula
