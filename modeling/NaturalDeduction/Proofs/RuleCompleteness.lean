/-
  NaturalDeduction.Proofs.RuleCompleteness
  ────────────────────────────────────────
  **THE CHECKS REFUSE NOTHING THAT THE TABLE LICENSES.**

  `licenses_of_check` is one direction; here is the other, rule by rule.  Two
  things could have gone wrong.  A check that takes two formulas in either
  order keeps to the first order that fits, and the second might have been
  needed: but no two formulas are each an implication from the other.  And a
  check that is given no term looks for one: but the search misses none.

  Main statement: `check_iff_licenses`, with what the table means by citing
  said in terms of the state.
-/
import NaturalDeduction.Proofs.Instances
import NaturalDeduction.Proofs.RuleTable

namespace NaturalDeduction.Rule

open Context

variable {c : Context}

/-! ## §1. Rules that cite formulas. -/

theorem check_conjIntro (h : Licenses c conjIntro) : checkConjIntro c = .ok () := by
  obtain ⟨f, g, hf, hg, hr⟩ := h
  simp only [checkConjIntro, bind_eq_ok, formula_eq_ok, conclude_eq_ok]
  exact ⟨f, hf, g, hg, hr⟩

theorem check_doubleNegIntro (h : Licenses c doubleNegIntro) :
    checkDoubleNegIntro c = .ok () := by
  simp only [checkDoubleNegIntro, bind_eq_ok, formula_eq_ok, conclude_eq_ok]
  exact h

theorem check_doubleNegElim (h : Licenses c doubleNegElim) : checkDoubleNegElim c = .ok () := by
  simp only [checkDoubleNegElim, bind_eq_ok, formula_eq_ok]
  exact ⟨_, h, conclude_eq_ok.mpr rfl⟩

theorem check_falsityElim (h : Licenses c falsityElim) : checkFalsityElim c = .ok () := by
  simp only [checkFalsityElim, bind_eq_ok, formula_eq_ok]
  exact ⟨_, h, rfl⟩

theorem check_identityIntro (h : Licenses c identityIntro) : checkIdentityIntro c = .ok () := by
  obtain ⟨t, hr⟩ := h
  unfold checkIdentityIntro
  rw [hr, Formula.identity?_identity]
  exact if_pos rfl

theorem check_identityElim (h : Licenses c identityElim) : checkIdentityElim c = .ok () := by
  obtain ⟨t, u, f, hidentity, hf, hbecomes⟩ := h
  simp only [checkIdentityElim, bind_eq_ok, formula_eq_ok]
  refine ⟨_, hidentity, ?_⟩
  rw [Formula.identity?_identity]
  simp only [bind_eq_ok, formula_eq_ok]
  exact ⟨f, hf, if_pos hbecomes⟩

/-! ## §2. Rules that take two formulas in either order. -/

/-- What two formulas yield in one order only, they yield whichever is cited
first. -/
theorem exists_yields_of_citesBoth {yield? : Formula → Formula → Option Formula}
    {f g expected : Formula} (hboth : c.CitesBoth f g) (hfg : yield? f g = some expected)
    (hgf : yield? g f = none) :
    ∃ first second, c.Cites 0 first ∧ c.Cites 1 second
      ∧ (yield? first second).or (yield? second first) = some expected := by
  rcases hboth with ⟨hf, hg⟩ | ⟨hg, hf⟩
  · refine ⟨f, g, hf, hg, ?_⟩
    rw [hfg, Option.some_or]
  · refine ⟨g, f, hg, hf, ?_⟩
    rw [hgf, hfg, Option.none_or]

theorem otherSide?_left (denied side : Formula) :
    otherSide? (.disj denied side) (.neg denied) = some side := if_pos rfl

theorem otherSide?_right (denied side : Formula) :
    otherSide? (.disj side denied) (.neg denied) = some side := by
  show (if denied = side then some denied else if denied = denied then some side else none) = _
  -- If both sides are alike, either of them is the other.
  by_cases hsame : denied = side
  · rw [if_pos hsame, hsame]
  · rw [if_neg hsame, if_pos rfl]

theorem check_tollendoPonens (h : Licenses c tollendoPonens) :
    checkTollendoPonens c = .ok () := by
  have hyields : ∃ first second, c.Cites 0 first ∧ c.Cites 1 second
      ∧ (otherSide? first second).or (otherSide? second first) = some c.result := by
    obtain ⟨denied, hboth | hboth⟩ := h
    · exact exists_yields_of_citesBoth hboth (otherSide?_left denied c.result) rfl
    · exact exists_yields_of_citesBoth hboth (otherSide?_right denied c.result) rfl
  obtain ⟨first, second, hfirst, hsecond, hyield⟩ := hyields
  simp only [checkTollendoPonens, bind_eq_ok, formula_eq_ok]
  refine ⟨first, hfirst, second, hsecond, ?_⟩
  rw [hyield]
  exact conclude_eq_ok.mpr rfl

theorem consequent?_imp (left right : Formula) :
    consequent? (.imp left right) left = some right := if_pos rfl

/-- **No two formulas are each an implication from the other.** -/
theorem consequent?_antecedent (left right : Formula) :
    consequent? left (.imp left right) = none := by
  cases hyield : consequent? left (.imp left right) with
  | none => rfl
  | some other =>
      -- The antecedent would contain the implication that it is a part of.
      have hsize := congrArg sizeOf (eq_of_consequent? hyield)
      simp only [Formula.join.sizeOf_spec] at hsize
      omega

theorem check_impElim (h : Licenses c impElim) : checkImpElim c = .ok () := by
  obtain ⟨f, hboth⟩ := h
  obtain ⟨first, second, hfirst, hsecond, hyield⟩ := exists_yields_of_citesBoth hboth
    (consequent?_imp f c.result) (consequent?_antecedent f c.result)
  simp only [checkImpElim, bind_eq_ok, formula_eq_ok]
  refine ⟨first, hfirst, second, hsecond, ?_⟩
  rw [hyield]
  exact conclude_eq_ok.mpr rfl

theorem deniedAntecedent?_imp (left right : Formula) :
    deniedAntecedent? (.imp left right) (.neg right) = some (.neg left) := if_pos rfl

theorem check_modusTollens (h : Licenses c modusTollens) : checkModusTollens c = .ok () := by
  obtain ⟨f, g, hboth, hr⟩ := h
  obtain ⟨first, second, hfirst, hsecond, hyield⟩ :=
    exists_yields_of_citesBoth hboth (deniedAntecedent?_imp f g) rfl
  simp only [checkModusTollens, bind_eq_ok, formula_eq_ok]
  refine ⟨first, hfirst, second, hsecond, ?_⟩
  rw [hyield]
  exact conclude_eq_ok.mpr hr

theorem check_negElim (h : Licenses c negElim) : checkNegElim c = .ok () := by
  obtain ⟨⟨f, hboth⟩, hr⟩ := h
  unfold checkNegElim
  rw [if_neg (not_not.mpr hr)]
  simp only [bind_eq_ok, formula_eq_ok]
  rcases hboth with ⟨hf, hneg⟩ | ⟨hneg, hf⟩
  · exact ⟨_, hf, _, hneg, if_pos (by simp [contradict])⟩
  · exact ⟨_, hneg, _, hf, if_pos (by simp [contradict])⟩

/-! ## §3. Rules that cite subproofs. -/

/-- A case is a subproof from an assumption. -/
theorem exists_hypothetical {index : Nat} {f g : Formula} (h : c.CitesCase index f g) :
    ∃ b, c.hypothetical index = .ok b ∧ b.first = f ∧ b.last = g := by
  obtain ⟨b, hb, hassumes, hfirst, hlast⟩ := h
  exact ⟨b, hypothetical_eq_ok.mpr ⟨hb, hassumes⟩, hfirst, hlast⟩

theorem check_disjElim (h : Licenses c disjElim) : checkDisjElim c = .ok () := by
  obtain ⟨f, g, hfg, hleft, hright⟩ := h
  obtain ⟨leftCase, hl, hlfirst, hllast⟩ := exists_hypothetical hleft
  obtain ⟨rightCase, hr, hrfirst, hrlast⟩ := exists_hypothetical hright
  simp only [checkDisjElim, bind_eq_ok, formula_eq_ok]
  refine ⟨_, hfg, ?_⟩
  simp only [bind_eq_ok]
  refine ⟨leftCase, hl, rightCase, hr, ?_⟩
  rw [if_neg (not_not.mpr hlfirst), if_neg (not_not.mpr hrfirst),
    if_neg (not_not.mpr (hllast.trans hrlast.symm))]
  exact conclude_eq_ok.mpr hllast.symm

theorem check_impIntro (h : Licenses c impIntro) : checkImpIntro c = .ok () := by
  obtain ⟨f, g, hcase, hr⟩ := h
  obtain ⟨b, hb, rfl, rfl⟩ := exists_hypothetical hcase
  simp only [checkImpIntro, bind_eq_ok, conclude_eq_ok]
  exact ⟨b, hb, hr⟩

theorem check_negIntro (h : Licenses c negIntro) : checkNegIntro c = .ok () := by
  obtain ⟨f, hcase, hr⟩ := h
  obtain ⟨b, hb, rfl, hlast⟩ := exists_hypothetical hcase
  simp only [checkNegIntro, bind_eq_ok]
  refine ⟨b, hb, ?_⟩
  rw [if_neg (not_not.mpr hlast)]
  exact conclude_eq_ok.mpr hr

theorem check_allIntro (h : Licenses c allIntro) : checkAllIntro c = .ok () := by
  obtain ⟨x, f, z, b, hb, hassumes, hflag, hfresh, hr, hescapes, hinstance⟩ := h
  simp only [checkAllIntro, bind_eq_ok, subproof_eq_ok]
  refine ⟨b, hb, ?_⟩
  rw [hr] at hescapes
  simp [hflag, hassumes, hfresh, hr, hescapes, hinstance]

theorem check_exElim (h : Licenses c exElim) : checkExElim c = .ok () := by
  obtain ⟨x, f, z, b, hex, hb, hassumes, hflag, hfresh, hfirst, hescapes, hr⟩ := h
  simp only [checkExElim, bind_eq_ok, formula_eq_ok]
  refine ⟨_, hex, ?_⟩
  simp only [bind_eq_ok]
  refine ⟨b, hypothetical_eq_ok.mpr ⟨hb, hassumes⟩, ?_⟩
  simp [hflag, hfresh, hfirst, hescapes, conclude_eq_ok, hr]

/-! ## §4. Rules with a term, noted or searched for. -/

/-- A note that the table goes by is for the bound variable and has its
term. -/
theorem note_of_notes {term var : Name} (h : c.Notes term var) {note : Substitution}
    (hnote : (c.citedAt 0).substitution? = some note) :
    note.term = term ∧ checkBound note var = .ok () := by
  obtain rfl := h note hnote
  exact ⟨rfl, checkBound_eq_ok.mpr rfl⟩

theorem check_allElim (h : Licenses c allElim) : checkAllElim c = .ok () := by
  obtain ⟨x, f, t, hall, hnotes, hinstance⟩ := h
  simp only [checkAllElim, bind_eq_ok, formula_eq_ok]
  refine ⟨_, hall, ?_⟩
  cases hnote : (c.citedAt 0).substitution? with
  | some note =>
      obtain ⟨rfl, hbound⟩ := note_of_notes hnotes hnote
      simp only [bind_eq_ok]
      refine ⟨(), hbound, ?_⟩
      rw [hinstance]
      exact conclude_eq_ok.mpr rfl
  | none => exact if_pos (Formula.isSome_instanceTerm?_iff.mpr ⟨t, hinstance⟩)

theorem check_exIntro (h : Licenses c exIntro) : checkExIntro c = .ok () := by
  obtain ⟨x, f, t, g, hg, hr, hnotes, hinstance⟩ := h
  simp only [checkExIntro, bind_eq_ok, formula_eq_ok, hr]
  refine ⟨g, hg, ?_⟩
  cases hnote : (c.citedAt 0).substitution? with
  | some note =>
      obtain ⟨rfl, hbound⟩ := note_of_notes hnotes hnote
      simp only [bind_eq_ok]
      exact ⟨(), hbound, if_pos hinstance⟩
  | none => exact if_pos (Formula.isSome_instanceTerm?_iff.mpr ⟨t, hinstance⟩)

/-! ## §5. All rules. -/

/-- **Whatever the table licenses, the check lets pass.** -/
theorem check_of_licenses {rule : Rule} (h : Licenses c rule) : rule.check c = .ok () := by
  cases rule with
  | premiss => exact if_neg (Nat.not_lt.mpr (Nat.le_of_eq h))
  | assumption => rfl
  | conjIntro => exact check_conjIntro h
  | conjElimLeft => exact checkConjElim_eq_ok_iff.mpr (conjElimLeft_iff.mp h)
  | conjElimRight => exact checkConjElim_eq_ok_iff.mpr (conjElimRight_iff.mp h)
  | disjIntroLeft => exact checkDisjIntro_eq_ok_iff.mpr h
  | disjIntroRight => exact checkDisjIntro_eq_ok_iff.mpr h
  | disjElim => exact check_disjElim h
  | tollendoPonens => exact check_tollendoPonens h
  | impIntro => exact check_impIntro h
  | impElim => exact check_impElim h
  | modusTollens => exact check_modusTollens h
  | negIntro => exact check_negIntro h
  | negElim => exact check_negElim h
  | doubleNegIntro => exact check_doubleNegIntro h
  | doubleNegElim => exact check_doubleNegElim h
  | falsityElim => exact check_falsityElim h
  | allIntro => exact check_allIntro h
  | allElim => exact check_allElim h
  | exIntro => exact check_exIntro h
  | exElim => exact check_exElim h
  | identityIntro => exact check_identityIntro h
  | identityElim => exact check_identityElim h

/-- **A line keeps its rule exactly if the table licenses it**, from whatever
state it is checked.  By citing the table means what the state says: a cited
formula is that of the visible line which the citation starts with; a cited
subproof is a closed one, named from its first line to its last; and a term is
prescribed only by a note on the first citation. -/
theorem check_iff_licenses (s : ProofState) (line : ProofLine) (result : Formula) (rule : Rule) :
    (rule.check (s.context line result) = .ok () ↔ rule.Licenses (s.context line result))
      ∧ (∀ index f, (s.context line result).Cites index f
        ↔ ∃ cited, line.citations[index]? = some (some cited)
          ∧ s.scopes.isVisible cited.leading = true ∧ s.formula? cited.leading = some f)
      ∧ (∀ index b, (s.context line result).CitesSubproof index b
        ↔ ∃ first last subproof, line.citations[index]? = some (some (.subproof first last))
          ∧ s.scopes.closed? first last = some subproof
          ∧ s.formula? first = some b.first ∧ s.formula? last = some b.last
          ∧ b.flag = subproof.flag ∧ b.assumes = subproof.assumes
          ∧ b.flagFresh = subproof.flagFresh)
      ∧ ∀ term var, (s.context line result).Notes term var
        ↔ ∀ cited, line.citations[0]? = some (some cited) →
          ∀ note ∈ cited.substitution?, note = ⟨term, var⟩ := by
  refine ⟨⟨licenses_of_check, check_of_licenses⟩, ?_, ?_, ?_⟩
  · intro index f
    exact ProofState.cites_iff
  · intro index b
    exact ProofState.citesSubproof_iff
  · intro term var
    exact ProofState.notes_iff

end NaturalDeduction.Rule
