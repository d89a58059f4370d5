/-
  NaturalDeduction.Proofs.LookUps
  ───────────────────────────────
  **WHAT A RULE LOOKS AT.**

  A rule looks at as many citations as it has premisses (`Rule.arity`), from the
  first one on.  Which of their formulas a check looks up (`Rule.reads`) is less
  than that: it stops at the first that is missing, and takes the formulas of a
  subproof from the subproof.  Main statements:

    • `Rule.leads_of_licenses` — what a rule looks at has to be there,
    • `Rule.licenses_congr` — and nothing else matters,
    • `Rule.lt_arity_of_mem_reads`, `Rule.check_congr_of_reads`,
      `Rule.check_eq_error_of_reads` — the formulas that a check looks up are among
      those that its rule looks at, no others matter, and each of them has to be
      there.
-/
import NaturalDeduction.Proofs.RuleCompleteness

namespace NaturalDeduction

/-! ## §1. The citations that a rule needs. -/

/-- How many citations a rule looks at. -/
def Rule.arity : Rule → Nat
  | premiss | assumption | identityIntro => 0
  | conjElimLeft | conjElimRight | disjIntroLeft | disjIntroRight | doubleNegIntro
  | doubleNegElim | falsityElim | impIntro | negIntro | allIntro | allElim | exIntro => 1
  | conjIntro | tollendoPonens | impElim | modusTollens | negElim | exElim | identityElim => 2
  | disjElim => 3

namespace Context

/-- The citation at a place leads to a visible line or to a closed subproof. -/
def Leads (c : Context) (index : Nat) : Prop :=
  (∃ f, c.Cites index f) ∨ ∃ b, c.CitesSubproof index b

variable {c d : Context} {index : Nat}

theorem Cites.leads {f : Formula} (h : c.Cites index f) : c.Leads index := Or.inl ⟨f, h⟩

theorem CitesSubproof.leads {b : CitedSubproof} (h : c.CitesSubproof index b) : c.Leads index :=
  Or.inr ⟨b, h⟩

theorem CitesCase.leads {f g : Formula} (h : c.CitesCase index f g) : c.Leads index := by
  obtain ⟨b, hb, -⟩ := h
  exact hb.leads

theorem leads_one (h : c.Leads 0) : ∀ i < 1, c.Leads i := by
  intro i hi
  rwa [Nat.lt_one_iff.mp hi]

theorem leads_two (h : c.Leads 0) (h' : c.Leads 1) : ∀ i < 2, c.Leads i := by
  intro i hi
  rcases Nat.lt_succ_iff_lt_or_eq.mp hi with hlt | rfl
  · exact leads_one h i hlt
  · exact h'

theorem leads_three (h : c.Leads 0) (h' : c.Leads 1) (h'' : c.Leads 2) : ∀ i < 3, c.Leads i := by
  intro i hi
  rcases Nat.lt_succ_iff_lt_or_eq.mp hi with hlt | rfl
  · exact leads_two h h' i hlt
  · exact h''

/-- Of two formulas cited in either order, each citation leads to one. -/
theorem CitesBoth.leads {f g : Formula} (h : c.CitesBoth f g) : ∀ i < 2, c.Leads i := by
  rcases h with ⟨hf, hg⟩ | ⟨hg, hf⟩
  · exact leads_two hf.leads hg.leads
  · exact leads_two hg.leads hf.leads

end Context

namespace Rule

open Context

variable {c d : Context}

/-- **All that a rule looks at has to lead somewhere.** -/
theorem leads_of_licenses {rule : Rule} (h : rule.Licenses c) : ∀ i < rule.arity, c.Leads i := by
  cases rule with
  | premiss | assumption | identityIntro =>
      intro i hi
      exact absurd hi (Nat.not_lt_zero i)
  | conjIntro =>
      obtain ⟨f, g, hf, hg, -⟩ := h
      exact leads_two hf.leads hg.leads
  | conjElimLeft | conjElimRight =>
      obtain ⟨f, hf⟩ := h
      exact leads_one hf.leads
  | disjIntroLeft | disjIntroRight =>
      obtain ⟨f, g, hf, -⟩ := h
      exact leads_one hf.leads
  | disjElim =>
      obtain ⟨f, g, hfg, hleft, hright⟩ := h
      exact leads_three hfg.leads hleft.leads hright.leads
  | tollendoPonens =>
      obtain ⟨f, hboth | hboth⟩ := h
      · exact hboth.leads
      · exact hboth.leads
  | impIntro =>
      obtain ⟨f, g, hcase, -⟩ := h
      exact leads_one hcase.leads
  | impElim =>
      obtain ⟨f, hboth⟩ := h
      exact hboth.leads
  | modusTollens =>
      obtain ⟨f, g, hboth, -⟩ := h
      exact hboth.leads
  | negIntro =>
      obtain ⟨f, hcase, -⟩ := h
      exact leads_one hcase.leads
  | negElim =>
      obtain ⟨⟨f, hboth⟩, -⟩ := h
      exact hboth.leads
  | doubleNegIntro =>
      obtain ⟨f, hf, -⟩ := h
      exact leads_one hf.leads
  | doubleNegElim | falsityElim => exact leads_one (Cites.leads h)
  | allIntro =>
      obtain ⟨x, f, z, b, hb, -⟩ := h
      exact leads_one hb.leads
  | allElim =>
      obtain ⟨x, f, t, hall, -⟩ := h
      exact leads_one hall.leads
  | exIntro =>
      obtain ⟨x, f, t, g, hg, -⟩ := h
      exact leads_one hg.leads
  | exElim =>
      obtain ⟨x, f, z, b, hex, hb, -⟩ := h
      exact leads_two hex.leads hb.leads
  | identityElim =>
      obtain ⟨t, u, f, hidentity, hf, -⟩ := h
      exact leads_two hidentity.leads hf.leads

/-- **Nothing that a rule does not look at matters to it.** -/
theorem licenses_congr {rule : Rule} (hdepth : c.depth = d.depth) (hresult : c.result = d.result)
    (hcited : ∀ i < rule.arity, c.citedAt i = d.citedAt i) :
    rule.Licenses c ↔ rule.Licenses d := by
  cases rule <;>
    simp (disch := decide) only [Licenses, CitesBoth, CitesCase, CitesSubproof, Cites, Notes,
      hdepth, hresult, hcited]

end Rule

/-! ## §2. The formulas that a check looks up. -/

namespace Context

/-- Two contexts that differ at most in the formulas that citations lead to. -/
structure SameButFormulas (c d : Context) : Prop where
  depth : d.depth = c.depth
  result : d.result = c.result
  subproof? : ∀ i, (d.citedAt i).subproof? = (c.citedAt i).subproof?
  substitution? : ∀ i, (d.citedAt i).substitution? = (c.citedAt i).substitution?

variable {c d : Context}

theorem formula_congr {i : Nat} (h : (d.citedAt i).formula? = (c.citedAt i).formula?) :
    d.formula i = c.formula i := by
  unfold formula
  rw [h]

theorem formula_eq_error {i : Nat} (h : (c.citedAt i).formula? = none) :
    c.formula i = .error (.missingCitation i) := by
  unfold formula
  rw [h]

namespace SameButFormulas

theorem subproof_eq (h : c.SameButFormulas d) (i : Nat) : d.subproof i = c.subproof i := by
  unfold subproof
  rw [h.subproof?]

theorem hypothetical_eq (h : c.SameButFormulas d) (i : Nat) :
    d.hypothetical i = c.hypothetical i := by
  unfold hypothetical
  rw [h.subproof_eq]

theorem conclude_eq (h : c.SameButFormulas d) (f : Formula) : d.conclude f = c.conclude f := by
  unfold conclude
  rw [h.result]

end SameButFormulas

end Context

namespace Rule

open Context

variable {c d : Context}

theorem mem_readsBoth {i : Nat} : i ∈ readsBoth c ↔ i = 0 ∨ i = 1 ∧ ∃ f, c.Cites 0 f := by
  unfold readsBoth Cites
  cases (c.citedAt 0).formula? <;> simp

/-- The second formula of an identity elimination is looked up behind an identity. -/
theorem mem_reads_identityElim {i : Nat} :
    i ∈ identityElim.reads c
      ↔ i = 0 ∨ i = 1 ∧ ∃ f, c.Cites 0 f ∧ f.identity?.isSome = true := by
  unfold Cites
  show (i ∈ if ((c.citedAt 0).formula?.bind Formula.identity?).isSome then [0, 1] else [0]) ↔ _
  cases (c.citedAt 0).formula? with
  | none => simp
  | some f => cases hidentity : f.identity? <;> simp [hidentity]

theorem checkIdentityElim_of_cites {f : Formula} (h : c.Cites 0 f) :
    checkIdentityElim c =
      match f.identity? with
      | none => .error (.wrongShape 0 .identity f)
      | some (old, new) => c.formula 1 >>= fun formula =>
          if formula.becomes old new c.result then .ok ()
          else .error (.inapplicable .identityUnused) := by
  unfold checkIdentityElim
  rw [formula_eq_ok.mpr h]
  rfl

/-- **A check looks up formulas only at the places that its rule looks at.** -/
theorem lt_arity_of_mem_reads {rule : Rule} {i : Nat} (h : i ∈ rule.reads c) : i < rule.arity := by
  have hboth : ∀ j ∈ readsBoth c, j < 2 := by
    intro j hj
    rcases mem_readsBoth.mp hj with rfl | ⟨rfl, -⟩
    · decide
    · decide
  cases rule with
  | conjIntro | tollendoPonens | impElim | modusTollens => exact hboth i h
  | negElim =>
      simp only [reads] at h
      split at h
      · exact hboth i h
      · exact absurd h List.not_mem_nil
  | identityElim =>
      rcases mem_reads_identityElim.mp h with rfl | ⟨rfl, -⟩
      · decide
      · decide
  | premiss | assumption | impIntro | negIntro | allIntro | identityIntro =>
      exact absurd h List.not_mem_nil
  | _ =>
      rw [List.mem_singleton.mp h]
      decide

/-- Both formulas are looked up before a test. -/
theorem bind_both_congr (h : ∀ i ∈ readsBoth c, (d.citedAt i).formula? = (c.citedAt i).formula?)
    (k : Formula → Formula → Verdict) :
    (d.formula 0 >>= fun f => d.formula 1 >>= k f)
      = (c.formula 0 >>= fun f => c.formula 1 >>= k f) := by
  rw [formula_congr (h 0 (mem_readsBoth.mpr (Or.inl rfl)))]
  cases hf : c.formula 0 with
  | error v => rfl
  | ok f =>
      have hone : 1 ∈ readsBoth c := mem_readsBoth.mpr (Or.inr ⟨rfl, f, formula_eq_ok.mp hf⟩)
      rw [formula_congr (h 1 hone)]

theorem bind_both_missing {i : Nat} (hi : i ∈ readsBoth c) (h : (c.citedAt i).formula? = none)
    (k : Formula → Formula → Verdict) :
    (c.formula 0 >>= fun f => c.formula 1 >>= k f) = .error (.missingCitation i) := by
  rcases mem_readsBoth.mp hi with rfl | ⟨rfl, f, hf⟩
  · rw [formula_eq_error h]
    rfl
  · rw [formula_eq_ok.mpr hf, formula_eq_error h]
    rfl

/-- **No other formula matters to a check.** -/
theorem check_congr_of_reads {rule : Rule} (hsame : c.SameButFormulas d)
    (h : ∀ i ∈ rule.reads c, (d.citedAt i).formula? = (c.citedAt i).formula?) :
    rule.check d = rule.check c := by
  cases rule with
  | premiss => simp only [check, checkPremiss, hsame.depth]
  | assumption => rfl
  | impIntro => simp only [check, checkImpIntro, hsame.hypothetical_eq, hsame.conclude_eq]
  | negIntro => simp only [check, checkNegIntro, hsame.hypothetical_eq, hsame.conclude_eq]
  | allIntro => simp only [check, checkAllIntro, hsame.subproof_eq, hsame.result]
  | identityIntro => simp only [check, checkIdentityIntro, hsame.result]
  | conjIntro =>
      have hboth := bind_both_congr h fun f g => c.conclude (.conj f g)
      simpa only [check, checkConjIntro, hsame.conclude_eq] using hboth
  | tollendoPonens =>
      simp only [check, checkTollendoPonens, hsame.conclude_eq]
      exact bind_both_congr h _
  | impElim =>
      simp only [check, checkImpElim, hsame.conclude_eq]
      exact bind_both_congr h _
  | modusTollens =>
      simp only [check, checkModusTollens, hsame.conclude_eq]
      exact bind_both_congr h _
  | negElim =>
      -- Nothing is looked up unless the result is a falsity.
      simp only [reads] at h
      simp only [check, checkNegElim, hsame.result]
      split
      · rfl
      · next hr =>
        rw [if_pos (not_not.mp hr)] at h
        exact bind_both_congr h _
  | identityElim =>
      have hfirst := h 0 (mem_reads_identityElim.mpr (Or.inl rfl))
      show checkIdentityElim d = checkIdentityElim c
      cases hf : (c.citedAt 0).formula? with
      | none =>
          unfold checkIdentityElim
          rw [formula_eq_error (hfirst.trans hf), formula_eq_error hf]
          rfl
      | some f =>
          rw [checkIdentityElim_of_cites (hfirst.trans hf), checkIdentityElim_of_cites hf]
          cases hidentity : f.identity? with
          | none => rfl
          | some sides =>
              -- Behind an identity the second formula is looked up as well.
              have hsecond := h 1 (mem_reads_identityElim.mpr
                (Or.inr ⟨rfl, f, hf, by rw [hidentity]; rfl⟩))
              dsimp only
              rw [formula_congr hsecond, hsame.result]
  | _ =>
      -- The other rules look up one formula, and a subproof at most.
      have hfirst := formula_congr (h 0 List.mem_cons_self)
      simp only [check, checkConjElim, checkDisjIntro, checkDisjElim, checkDoubleNegIntro,
        checkDoubleNegElim, checkFalsityElim, checkAllElim, checkExIntro, checkExElim, hfirst,
        hsame.result, hsame.hypothetical_eq, hsame.conclude_eq, hsame.substitution?]

/-- **Each formula that a check looks up has to be there**: the check fails at the
first that is not. -/
theorem check_eq_error_of_reads {rule : Rule} {i : Nat} (hi : i ∈ rule.reads c)
    (h : (c.citedAt i).formula? = none) : rule.check c = .error (.missingCitation i) := by
  cases rule with
  | premiss | assumption | impIntro | negIntro | allIntro | identityIntro =>
      exact absurd hi List.not_mem_nil
  | conjIntro => exact bind_both_missing hi h fun f g => c.conclude (.conj f g)
  | tollendoPonens => exact bind_both_missing hi h _
  | impElim => exact bind_both_missing hi h _
  | modusTollens => exact bind_both_missing hi h _
  | negElim =>
      simp only [reads] at hi
      split at hi
      · next hr =>
        simp only [check, checkNegElim, hr]
        exact bind_both_missing hi h _
      · exact absurd hi List.not_mem_nil
  | identityElim =>
      rcases mem_reads_identityElim.mp hi with rfl | ⟨rfl, f, hf, hidentity⟩
      · show checkIdentityElim c = _
        unfold checkIdentityElim
        rw [formula_eq_error h]
        rfl
      · obtain ⟨sides, hsides⟩ := Option.isSome_iff_exists.mp hidentity
        show checkIdentityElim c = _
        rw [checkIdentityElim_of_cites hf, hsides, formula_eq_error h]
        rfl
  | _ =>
      obtain rfl : i = 0 := List.mem_singleton.mp hi
      simp only [check, checkConjElim, checkDisjIntro, checkDisjElim, checkDoubleNegIntro,
        checkDoubleNegElim, checkFalsityElim, checkAllElim, checkExIntro, checkExElim,
        formula_eq_error h]
      rfl

end Rule

end NaturalDeduction
