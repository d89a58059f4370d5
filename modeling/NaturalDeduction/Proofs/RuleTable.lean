/-
  NaturalDeduction.Proofs.RuleTable
  ─────────────────────────────────
  **THE TABLE OF RULES**, said without the checks.

  For each rule the table says what a line has to cite and what its formula
  has to be.  What citing amounts to in a state is said by `cites_iff`,
  `citesSubproof_iff` and `notes_iff`.

  `licenses_of_check` reads the table off the checks: whatever a check lets
  pass, the table licenses.  Reasoning about the calculus starts from the table
  and opens no check again.
-/
import Mathlib.Logic.Basic
import NaturalDeduction.Proof.Basic

namespace NaturalDeduction

/-! ## §1. What a line cites. -/

/-- A computation that goes through has gone through step by step. -/
theorem bind_eq_ok {ε α β : Type} {x : Except ε α} {f : α → Except ε β} {b : β} :
    (x >>= f) = .ok b ↔ ∃ a, x = .ok a ∧ f a = .ok b := by
  cases x with
  | error e => simp [bind, Except.bind]
  | ok a => simp [bind, Except.bind]

namespace Context

/-- The citation at a place leads to a visible line with this formula. -/
def Cites (c : Context) (index : Nat) (f : Formula) : Prop :=
  (c.citedAt index).formula? = some f

/-- The first two citations lead to these formulas, in either order. -/
def CitesBoth (c : Context) (f g : Formula) : Prop :=
  (c.Cites 0 f ∧ c.Cites 1 g) ∨ (c.Cites 0 g ∧ c.Cites 1 f)

/-- The citation at a place leads to this closed subproof. -/
def CitesSubproof (c : Context) (index : Nat) (b : CitedSubproof) : Prop :=
  (c.citedAt index).subproof? = some b

/-- The citation at a place leads to a closed subproof of `g` from the
assumption `f`. -/
def CitesCase (c : Context) (index : Nat) (f g : Formula) : Prop :=
  ∃ b, c.CitesSubproof index b ∧ b.assumes = true ∧ b.first = f ∧ b.last = g

/-- If a substitution is noted on the first citation, it puts `term` for
`var`. -/
def Notes (c : Context) (term var : Name) : Prop :=
  ∀ note, (c.citedAt 0).substitution? = some note → note = ⟨term, var⟩

theorem formula_eq_ok {c : Context} {index : Nat} {f : Formula} :
    c.formula index = .ok f ↔ c.Cites index f := by
  unfold formula Cites
  split <;> simp_all

theorem subproof_eq_ok {c : Context} {index : Nat} {b : CitedSubproof} :
    c.subproof index = .ok b ↔ c.CitesSubproof index b := by
  unfold subproof CitesSubproof
  split <;> simp_all

theorem hypothetical_eq_ok {c : Context} {index : Nat} {b : CitedSubproof} :
    c.hypothetical index = .ok b ↔ c.CitesSubproof index b ∧ b.assumes = true := by
  rw [← subproof_eq_ok]
  unfold hypothetical
  cases hb : c.subproof index with
  | error v => simp
  | ok b' =>
      by_cases ha : b'.assumes = true
      · simp only [ha, if_true, Except.ok.injEq]
        exact ⟨fun h => ⟨h, h ▸ ha⟩, fun h => h.1⟩
      · simp only [ha, Except.ok.injEq]
        refine ⟨fun h => absurd h (by simp), fun h => absurd (h.1 ▸ h.2) ha⟩

theorem conclude_eq_ok {c : Context} {f : Formula} :
    c.conclude f = .ok () ↔ c.result = f := by
  unfold conclude
  split <;> simp_all

/-- A subproof from an assumption that was looked up is a case. -/
theorem citesCase_of_hypothetical {c : Context} {index : Nat} {b : CitedSubproof}
    (h : c.hypothetical index = .ok b) : c.CitesCase index b.first b.last := by
  obtain ⟨hb, ha⟩ := hypothetical_eq_ok.mp h
  exact ⟨b, hb, ha, rfl, rfl⟩

end Context

namespace ProofState

variable {s : ProofState} {line : ProofLine} {result : Formula}

/-- What a citation of a line leads to is looked up in the state. -/
theorem citedAt_context (index : Nat) :
    (s.context line result).citedAt index = s.cite line.citations[index]?.join := by
  unfold Context.citedAt context
  rw [List.getElem?_map]
  cases line.citations[index]? with
  | none => rfl
  | some piece => rfl

theorem visible?_eq_some_iff {number : Nat} {f : Formula} :
    s.visible? number = some f
      ↔ s.scopes.isVisible number = true ∧ s.formula? number = some f := by
  unfold visible?
  split <;> simp_all

theorem subproof?_eq_some_iff {first last : Nat} {b : CitedSubproof} :
    s.subproof? first last = some b ↔ ∃ subproof, s.scopes.closed? first last = some subproof
      ∧ s.formula? first = some b.first ∧ s.formula? last = some b.last
      ∧ b.flag = subproof.flag ∧ b.assumes = subproof.assumes
      ∧ b.flagFresh = subproof.flagFresh := by
  unfold subproof?
  constructor
  · intro h
    split at h
    · next subproof f g hclosed hf hg =>
        rw [← Option.some.inj h]
        exact ⟨subproof, hclosed, hf, hg, rfl, rfl, rfl⟩
    · exact absurd h (by simp)
  · rintro ⟨subproof, hclosed, hf, hg, hflag, hassumes, hfresh⟩
    rw [hclosed, hf, hg]
    show some (CitedSubproof.mk _ _ _ _ _) = some b
    rw [← hflag, ← hassumes, ← hfresh]

/-- **A cited formula is that of a visible line**, the one that the citation
starts with. -/
theorem cites_iff {index : Nat} {f : Formula} :
    (s.context line result).Cites index f
      ↔ ∃ cited, line.citations[index]? = some (some cited)
        ∧ s.scopes.isVisible cited.leading = true ∧ s.formula? cited.leading = some f := by
  simp only [← visible?_eq_some_iff]
  unfold Context.Cites
  rw [citedAt_context]
  cases line.citations[index]? with
  | none => simp [cite, Cited.nothing]
  | some piece =>
      cases piece with
      | none => simp [cite, Cited.nothing]
      | some cited => cases cited <;> simp [cite, Citation.leading]

/-- **A cited subproof is closed and named from its first line to its last**,
and its first and last formulas are those of these lines. -/
theorem citesSubproof_iff {index : Nat} {b : CitedSubproof} :
    (s.context line result).CitesSubproof index b
      ↔ ∃ first last subproof, line.citations[index]? = some (some (.subproof first last))
        ∧ s.scopes.closed? first last = some subproof
        ∧ s.formula? first = some b.first ∧ s.formula? last = some b.last
        ∧ b.flag = subproof.flag ∧ b.assumes = subproof.assumes
        ∧ b.flagFresh = subproof.flagFresh := by
  simp only [exists_and_left, ← subproof?_eq_some_iff]
  unfold Context.CitesSubproof
  rw [citedAt_context]
  cases line.citations[index]? with
  | none => simp [cite, Cited.nothing]
  | some piece =>
      cases piece with
      | none => simp [cite, Cited.nothing]
      | some cited => cases cited <;> simp [cite, and_assoc]

/-- What is noted on the first citation is what the line says. -/
theorem notes_iff {term var : Name} :
    (s.context line result).Notes term var
      ↔ ∀ cited, line.citations[0]? = some (some cited) →
        ∀ note ∈ cited.substitution?, note = ⟨term, var⟩ := by
  unfold Context.Notes
  rw [citedAt_context]
  cases line.citations[0]? with
  | none => simp [cite, Cited.nothing]
  | some piece =>
      cases piece with
      | none => simp [cite, Cited.nothing]
      | some cited => cases cited <;> simp [cite, Citation.substitution?]

end ProofState

/-! ## §2. The table. -/

/-- **What each rule licenses.** -/
def Rule.Licenses (c : Context) : Rule → Prop
  | premiss => c.depth = 0
  | assumption => True
  | conjIntro => ∃ f g, c.Cites 0 f ∧ c.Cites 1 g ∧ c.result = .conj f g
  | conjElimLeft => ∃ g, c.Cites 0 (.conj c.result g)
  | conjElimRight => ∃ f, c.Cites 0 (.conj f c.result)
  | disjIntroLeft => ∃ f g, c.Cites 0 f ∧ c.result = .disj f g
  | disjIntroRight => ∃ f g, c.Cites 0 g ∧ c.result = .disj f g
  | disjElim =>
      ∃ f g, c.Cites 0 (.disj f g) ∧ c.CitesCase 1 f c.result ∧ c.CitesCase 2 g c.result
  | tollendoPonens =>
      ∃ f, c.CitesBoth (.disj f c.result) (.neg f) ∨ c.CitesBoth (.disj c.result f) (.neg f)
  | impIntro => ∃ f g, c.CitesCase 0 f g ∧ c.result = .imp f g
  | impElim => ∃ f, c.CitesBoth (.imp f c.result) f
  | modusTollens => ∃ f g, c.CitesBoth (.imp f g) (.neg g) ∧ c.result = .neg f
  | negIntro => ∃ f, c.CitesCase 0 f .falsity ∧ c.result = .neg f
  | negElim => (∃ f, c.CitesBoth f (.neg f)) ∧ c.result = .falsity
  | doubleNegIntro => ∃ f, c.Cites 0 f ∧ c.result = .neg (.neg f)
  | doubleNegElim => c.Cites 0 (.neg (.neg c.result))
  | falsityElim => c.Cites 0 .falsity
  | allIntro =>
      ∃ x f z b, c.CitesSubproof 0 b ∧ b.assumes = false ∧ b.flag = some z ∧ b.flagFresh = true
        ∧ c.result = .all x f ∧ c.result.isFree z = false ∧ f.substitute x z = some b.last
  | allElim =>
      ∃ x f t, c.Cites 0 (.all x f) ∧ c.Notes t x ∧ f.substitute x t = some c.result
  | exIntro =>
      ∃ x f t g, c.Cites 0 g ∧ c.result = .ex x f ∧ c.Notes t x ∧ f.substitute x t = some g
  | exElim =>
      ∃ x f z b, c.Cites 0 (.ex x f) ∧ c.CitesSubproof 1 b ∧ b.assumes = true
        ∧ b.flag = some z ∧ b.flagFresh = true ∧ f.substitute x z = some b.first
        ∧ b.last.isFree z = false ∧ c.result = b.last
  | identityIntro => ∃ t, c.result = .identity t t
  | identityElim =>
      ∃ t u f, c.Cites 0 (.identity t u) ∧ c.Cites 1 f ∧ f.becomes t u c.result = true

namespace Rule

open Context

variable {c : Context}

/-! ## §3. The checks of the propositional rules keep to it. -/

theorem conjIntro_of_check (h : checkConjIntro c = .ok ()) : Licenses c conjIntro := by
  simp only [checkConjIntro, bind_eq_ok, formula_eq_ok, conclude_eq_ok] at h
  obtain ⟨f, hf, g, hg, hr⟩ := h
  exact ⟨f, g, hf, hg, hr⟩

/-- The elimination of `&` takes one side of the conjunction that it cites. -/
theorem checkConjElim_eq_ok_iff {side : Side} :
    checkConjElim side c = .ok () ↔ ∃ f g, c.Cites 0 (.conj f g) ∧ c.result = side.pick f g := by
  simp only [checkConjElim, bind_eq_ok, formula_eq_ok]
  constructor
  · rintro ⟨parent, hparent, h⟩
    split at h
    · next left right => exact ⟨left, right, hparent, conclude_eq_ok.mp h⟩
    · exact absurd h (by simp)
  · rintro ⟨f, g, hcited, hr⟩
    exact ⟨_, hcited, conclude_eq_ok.mpr hr⟩

/-- The introduction of `v` cites one side of the disjunction that it infers. -/
theorem checkDisjIntro_eq_ok_iff {side : Side} :
    checkDisjIntro side c = .ok () ↔ ∃ f g, c.Cites 0 (side.pick f g) ∧ c.result = .disj f g := by
  simp only [checkDisjIntro, bind_eq_ok, formula_eq_ok]
  constructor
  · rintro ⟨parent, hparent, h⟩
    split at h
    · next left right hresult =>
        split at h
        · next hside => exact ⟨left, right, hside ▸ hparent, hresult⟩
        · exact absurd h (by simp)
    · exact absurd h (by simp)
  · rintro ⟨f, g, hcited, hr⟩
    refine ⟨_, hcited, ?_⟩
    rw [hr]
    exact if_pos rfl

theorem conjElimLeft_iff :
    Licenses c conjElimLeft ↔ ∃ f g, c.Cites 0 (.conj f g) ∧ c.result = Side.left.pick f g :=
  ⟨fun ⟨g, hg⟩ => ⟨c.result, g, hg, rfl⟩, fun ⟨f, g, hg, hr⟩ =>
    ⟨g, (show c.result = f from hr) ▸ hg⟩⟩

theorem conjElimRight_iff :
    Licenses c conjElimRight ↔ ∃ f g, c.Cites 0 (.conj f g) ∧ c.result = Side.right.pick f g :=
  ⟨fun ⟨f, hf⟩ => ⟨f, c.result, hf, rfl⟩, fun ⟨f, g, hf, hr⟩ =>
    ⟨f, (show c.result = g from hr) ▸ hf⟩⟩

theorem disjElim_of_check (h : checkDisjElim c = .ok ()) : Licenses c disjElim := by
  simp only [checkDisjElim, bind_eq_ok, formula_eq_ok] at h
  obtain ⟨parent, hparent, h⟩ := h
  split at h
  · next left right =>
      obtain ⟨leftCase, hl, rightCase, hr, h⟩ := by simpa only [bind_eq_ok] using h
      split at h
      · exact absurd h (by simp)
      · next hleft =>
          split at h
          · exact absurd h (by simp)
          · next hright =>
              split at h
              · exact absurd h (by simp)
              · next hlast =>
                  -- Both cases end in one formula, and the line repeats it.
                  have hresult := conclude_eq_ok.mp h
                  have hcaseL := citesCase_of_hypothetical hl
                  have hcaseR := citesCase_of_hypothetical hr
                  rw [not_not.mp hleft, ← hresult] at hcaseL
                  rw [not_not.mp hright, ← not_not.mp hlast, ← hresult] at hcaseR
                  exact ⟨left, right, hparent, hcaseL, hcaseR⟩
  · exact absurd h (by simp)

/-- What two formulas yield whichever comes first, they yield in one of the
orders. -/
theorem yields_of_or {yield? : Formula → Formula → Option Formula} {f g expected : Formula}
    (h : (yield? f g).or (yield? g f) = some expected) :
    yield? f g = some expected ∨ yield? g f = some expected := by
  cases hfg : yield? f g with
  | some e => left; simpa [hfg] using h
  | none => right; simpa [hfg] using h

theorem eq_of_otherSide? {f g side : Formula} (h : otherSide? f g = some side) :
    ∃ denied, g = .neg denied ∧ (f = .disj denied side ∨ f = .disj side denied) := by
  unfold otherSide? at h
  split at h
  · next left right denied =>
      refine ⟨denied, rfl, ?_⟩
      split at h
      · next hd => left; rw [hd, Option.some.inj h]
      · split at h
        · next hd => right; rw [hd, Option.some.inj h]
        · exact absurd h (by simp)
  · exact absurd h (by simp)

theorem tollendoPonens_of_check (h : checkTollendoPonens c = .ok ()) :
    Licenses c tollendoPonens := by
  simp only [checkTollendoPonens, bind_eq_ok, formula_eq_ok] at h
  obtain ⟨first, hfirst, second, hsecond, h⟩ := h
  split at h
  · next expected hyield =>
      rw [← conclude_eq_ok.mp h] at hyield
      rcases yields_of_or hyield with hside | hside
      · obtain ⟨denied, rfl, rfl | rfl⟩ := eq_of_otherSide? hside
        · exact ⟨denied, Or.inl (Or.inl ⟨hfirst, hsecond⟩)⟩
        · exact ⟨denied, Or.inr (Or.inl ⟨hfirst, hsecond⟩)⟩
      · obtain ⟨denied, rfl, rfl | rfl⟩ := eq_of_otherSide? hside
        · exact ⟨denied, Or.inl (Or.inr ⟨hfirst, hsecond⟩)⟩
        · exact ⟨denied, Or.inr (Or.inr ⟨hfirst, hsecond⟩)⟩
  · exact absurd h (by simp)

theorem impIntro_of_check (h : checkImpIntro c = .ok ()) : Licenses c impIntro := by
  simp only [checkImpIntro, bind_eq_ok, conclude_eq_ok] at h
  obtain ⟨b, hb, hr⟩ := h
  exact ⟨b.first, b.last, citesCase_of_hypothetical hb, hr⟩

theorem eq_of_consequent? {f g right : Formula} (h : consequent? f g = some right) :
    f = .imp g right := by
  unfold consequent? at h
  split at h
  · split at h
    · next hleft => rw [hleft, Option.some.inj h]
    · exact absurd h (by simp)
  · exact absurd h (by simp)

theorem impElim_of_check (h : checkImpElim c = .ok ()) : Licenses c impElim := by
  simp only [checkImpElim, bind_eq_ok, formula_eq_ok] at h
  obtain ⟨first, hfirst, second, hsecond, h⟩ := h
  split at h
  · next expected hyield =>
      rw [← conclude_eq_ok.mp h] at hyield
      rcases yields_of_or hyield with hright | hright
      · rw [eq_of_consequent? hright] at hfirst
        exact ⟨second, Or.inl ⟨hfirst, hsecond⟩⟩
      · rw [eq_of_consequent? hright] at hsecond
        exact ⟨first, Or.inr ⟨hfirst, hsecond⟩⟩
  · split at h <;> exact absurd h (by simp)

theorem eq_of_deniedAntecedent? {f g denial : Formula}
    (h : deniedAntecedent? f g = some denial) :
    ∃ left right, f = .imp left right ∧ g = .neg right ∧ denial = .neg left := by
  unfold deniedAntecedent? at h
  split at h
  · next left right denied =>
      split at h
      · next hd => exact ⟨left, right, rfl, by rw [hd], (Option.some.inj h).symm⟩
      · exact absurd h (by simp)
  · exact absurd h (by simp)

theorem modusTollens_of_check (h : checkModusTollens c = .ok ()) :
    Licenses c modusTollens := by
  simp only [checkModusTollens, bind_eq_ok, formula_eq_ok] at h
  obtain ⟨first, hfirst, second, hsecond, h⟩ := h
  split at h
  · next expected hyield =>
      have hresult := conclude_eq_ok.mp h
      rcases yields_of_or hyield with hdenial | hdenial
      · obtain ⟨left, right, rfl, rfl, rfl⟩ := eq_of_deniedAntecedent? hdenial
        exact ⟨left, right, Or.inl ⟨hfirst, hsecond⟩, hresult⟩
      · obtain ⟨left, right, rfl, rfl, rfl⟩ := eq_of_deniedAntecedent? hdenial
        exact ⟨left, right, Or.inr ⟨hfirst, hsecond⟩, hresult⟩
  · exact absurd h (by simp)

theorem negIntro_of_check (h : checkNegIntro c = .ok ()) : Licenses c negIntro := by
  simp only [checkNegIntro, bind_eq_ok] at h
  obtain ⟨b, hb, h⟩ := h
  split at h
  · exact absurd h (by simp)
  · next hlast =>
      have hcase := citesCase_of_hypothetical hb
      rw [not_not.mp hlast] at hcase
      exact ⟨b.first, hcase, conclude_eq_ok.mp h⟩

theorem negElim_of_check (h : checkNegElim c = .ok ()) : Licenses c negElim := by
  unfold checkNegElim at h
  split at h
  · exact absurd h (by simp)
  · next hresult =>
      simp only [bind_eq_ok, formula_eq_ok] at h
      obtain ⟨first, hfirst, second, hsecond, h⟩ := h
      split at h
      · next hcontra =>
          refine ⟨?_, not_not.mp hresult⟩
          simp only [contradict, Bool.or_eq_true, decide_eq_true_eq] at hcontra
          rcases hcontra with rfl | rfl
          · exact ⟨second, Or.inr ⟨hfirst, hsecond⟩⟩
          · exact ⟨first, Or.inl ⟨hfirst, hsecond⟩⟩
      · exact absurd h (by simp)

theorem doubleNegIntro_of_check (h : checkDoubleNegIntro c = .ok ()) :
    Licenses c doubleNegIntro := by
  simp only [checkDoubleNegIntro, bind_eq_ok, formula_eq_ok, conclude_eq_ok] at h
  exact h

theorem doubleNegElim_of_check (h : checkDoubleNegElim c = .ok ()) :
    Licenses c doubleNegElim := by
  simp only [checkDoubleNegElim, bind_eq_ok, formula_eq_ok] at h
  obtain ⟨parent, hparent, h⟩ := h
  split at h
  · rw [← conclude_eq_ok.mp h] at hparent
    exact hparent
  · exact absurd h (by simp)

theorem falsityElim_of_check (h : checkFalsityElim c = .ok ()) : Licenses c falsityElim := by
  simp only [checkFalsityElim, bind_eq_ok, formula_eq_ok] at h
  obtain ⟨parent, hparent, h⟩ := h
  split at h
  · exact hparent
  · exact absurd h (by simp)

/-! ## §4. The checks of the quantifier and identity rules keep to it. -/

theorem checkBound_eq_ok {note : Substitution} {bound : Name} :
    checkBound note bound = .ok () ↔ note.var = bound := by
  unfold checkBound
  split <;> simp_all

/-- A note for the bound variable is the one that the table asks for. -/
theorem notes_of_bound {note : Substitution} {bound : Name}
    (hnote : (c.citedAt 0).substitution? = some note) (hbound : note.var = bound) :
    c.Notes note.term bound := by
  intro note' h
  rw [hnote, Option.some.injEq] at h
  rw [← h, ← hbound]

/-- Where nothing is noted, any term will do. -/
theorem notes_of_none (hnone : (c.citedAt 0).substitution? = none) (term var : Name) :
    c.Notes term var := by
  intro note h
  rw [hnone] at h
  exact absurd h (by simp)

theorem allIntro_of_check (h : checkAllIntro c = .ok ()) : Licenses c allIntro := by
  simp only [checkAllIntro, bind_eq_ok, subproof_eq_ok] at h
  obtain ⟨b, hb, h⟩ := h
  split at h
  · exact absurd h (by simp)
  · next flag hflag =>
      split at h
      · exact absurd h (by simp)
      · next hassumes =>
          split at h
          · exact absurd h (by simp)
          · next hfresh =>
              split at h
              · next var body hresult =>
                  split at h
                  · exact absurd h (by simp)
                  · next hescapes =>
                      split at h
                      · next hinstance =>
                          exact ⟨var, body, flag, b, hb, by simpa using hassumes, hflag,
                            by simpa using hfresh, hresult, by simpa using hescapes, hinstance⟩
                      · exact absurd h (by simp)
              · exact absurd h (by simp)

theorem allElim_of_check (h : checkAllElim c = .ok ()) : Licenses c allElim := by
  simp only [checkAllElim, bind_eq_ok, formula_eq_ok] at h
  obtain ⟨parent, hparent, h⟩ := h
  split at h
  · next var body =>
      -- With a note the term is given; without one it was found by comparing.
      split at h
      · next note hnote =>
          obtain ⟨_, hbound, h⟩ := bind_eq_ok.mp h
          have hnotes := notes_of_bound hnote (checkBound_eq_ok.mp hbound)
          split at h
          · next expected hexpected =>
              rw [← conclude_eq_ok.mp h] at hexpected
              exact ⟨var, body, note.term, hparent, hnotes, hexpected⟩
          · exact absurd h (by simp)
      · next hnone =>
          split at h
          · next hterm =>
              obtain ⟨term, hterm⟩ := Option.isSome_iff_exists.mp hterm
              exact ⟨var, body, term, hparent, notes_of_none hnone term var,
                Formula.substitute_of_instanceTerm? hterm⟩
          · exact absurd h (by simp)
  · exact absurd h (by simp)

theorem exIntro_of_check (h : checkExIntro c = .ok ()) : Licenses c exIntro := by
  simp only [checkExIntro, bind_eq_ok, formula_eq_ok] at h
  obtain ⟨parent, hparent, h⟩ := h
  split at h
  · next var body hresult =>
      split at h
      · next note hnote =>
          obtain ⟨_, hbound, h⟩ := bind_eq_ok.mp h
          have hnotes := notes_of_bound hnote (checkBound_eq_ok.mp hbound)
          split at h
          · next hinstance =>
              exact ⟨var, body, note.term, parent, hparent, hresult, hnotes, hinstance⟩
          · exact absurd h (by simp)
      · next hnone =>
          split at h
          · next hterm =>
              obtain ⟨term, hterm⟩ := Option.isSome_iff_exists.mp hterm
              exact ⟨var, body, term, parent, hparent, hresult, notes_of_none hnone term var,
                Formula.substitute_of_instanceTerm? hterm⟩
          · exact absurd h (by simp)
  · exact absurd h (by simp)

theorem exElim_of_check (h : checkExElim c = .ok ()) : Licenses c exElim := by
  simp only [checkExElim, bind_eq_ok, formula_eq_ok] at h
  obtain ⟨parent, hparent, h⟩ := h
  split at h
  · next var body =>
      obtain ⟨b, hb, h⟩ := bind_eq_ok.mp h
      obtain ⟨hb, hassumes⟩ := hypothetical_eq_ok.mp hb
      split at h
      · exact absurd h (by simp)
      · next flag hflag =>
          split at h
          · exact absurd h (by simp)
          · next hfresh =>
              split at h
              · exact absurd h (by simp)
              · next expected hexpected =>
                  split at h
                  · exact absurd h (by simp)
                  · next hfirst =>
                      split at h
                      · exact absurd h (by simp)
                      · next hescapes =>
                          rw [not_not.mp hfirst] at hexpected
                          exact ⟨var, body, flag, b, hparent, hb, hassumes, hflag,
                            by simpa using hfresh, hexpected, by simpa using hescapes,
                            conclude_eq_ok.mp h⟩
  · exact absurd h (by simp)

theorem identityIntro_of_check (h : checkIdentityIntro c = .ok ()) :
    Licenses c identityIntro := by
  unfold checkIdentityIntro at h
  split at h
  · next left right hsides =>
      split at h
      · next hsame =>
          rw [hsame] at hsides
          exact ⟨right, Formula.eq_identity_of_identity? hsides⟩
      · exact absurd h (by simp)
  · exact absurd h (by simp)

theorem identityElim_of_check (h : checkIdentityElim c = .ok ()) :
    Licenses c identityElim := by
  simp only [checkIdentityElim, bind_eq_ok, formula_eq_ok] at h
  obtain ⟨identity, hidentity, h⟩ := h
  split at h
  · exact absurd h (by simp)
  · next old new hsides =>
      simp only [bind_eq_ok, formula_eq_ok] at h
      obtain ⟨f, hf, h⟩ := h
      split at h
      · next hbecomes =>
          rw [Formula.eq_identity_of_identity? hsides] at hidentity
          exact ⟨old, new, f, hidentity, hf, hbecomes⟩
      · exact absurd h (by simp)

/-! ## §5. All rules. -/

/-- **Whatever a check lets pass, the table licenses.** -/
theorem licenses_of_check {rule : Rule} (h : rule.check c = .ok ()) : Licenses c rule := by
  cases rule with
  | premiss =>
      simp only [check, checkPremiss] at h
      split at h
      · exact absurd h (by simp)
      · next hdepth => exact Nat.eq_zero_of_not_pos hdepth
  | assumption => trivial
  | conjIntro => exact conjIntro_of_check h
  | conjElimLeft => exact conjElimLeft_iff.mpr (checkConjElim_eq_ok_iff.mp h)
  | conjElimRight => exact conjElimRight_iff.mpr (checkConjElim_eq_ok_iff.mp h)
  | disjIntroLeft => exact checkDisjIntro_eq_ok_iff.mp h
  | disjIntroRight => exact checkDisjIntro_eq_ok_iff.mp h
  | disjElim => exact disjElim_of_check h
  | tollendoPonens => exact tollendoPonens_of_check h
  | impIntro => exact impIntro_of_check h
  | impElim => exact impElim_of_check h
  | modusTollens => exact modusTollens_of_check h
  | negIntro => exact negIntro_of_check h
  | negElim => exact negElim_of_check h
  | doubleNegIntro => exact doubleNegIntro_of_check h
  | doubleNegElim => exact doubleNegElim_of_check h
  | falsityElim => exact falsityElim_of_check h
  | allIntro => exact allIntro_of_check h
  | allElim => exact allElim_of_check h
  | exIntro => exact exIntro_of_check h
  | exElim => exact exElim_of_check h
  | identityIntro => exact identityIntro_of_check h
  | identityElim => exact identityElim_of_check h

end Rule

end NaturalDeduction
