/-
  NaturalDeduction.Proofs.RuleSoundness
  ─────────────────────────────────────
  **EVERY RULE KEEPS TRUTH**, one application at a time.

  The hypotheses of a line are a property `Γ` of assignments.  A citation is
  good for truth under `Γ` when the cited line is true wherever `Γ` holds, and
  when a cited subproof leads from hypotheses that `Γ` contains, with its own
  assumption, to its last line.  `holds_of_licenses` says that then the line is
  true wherever `Γ` holds as well.

  The elimination of `exists` needs one thing more: the flag of the cited
  subproof must not be free in the cited existential formula.  The check does
  not ask for that, so it stands here as a condition of its own (`FlagApart`).
-/
import NaturalDeduction.Proofs.RuleTable
import NaturalDeduction.Proofs.Semantics

namespace NaturalDeduction

universe u

/-! ## §1. Citations that may be relied on. -/

/-- A closed subproof leads from hypotheses `Δ`, which `Γ` contains, to its
last line, with the help of its assumption if it makes one.  A fresh flag may
stand for any object without touching `Δ`. -/
def CitedSubproof.Backed (M : Model.{u}) (Γ : M.Assignment → Prop) (b : CitedSubproof) : Prop :=
  ∃ Δ : M.Assignment → Prop,
    (∀ s, Γ s → Δ s)
      ∧ (∀ s, Δ s → (b.assumes = true → b.first.holds M s) → b.last.holds M s)
      ∧ ∀ z, b.flag = some z → b.flagFresh = true → ∀ s a, Δ s → Δ (Function.update s z a)

namespace Context

/-- Everything that a line cites may be relied on under `Γ`. -/
structure Backed (M : Model.{u}) (Γ : M.Assignment → Prop) (c : Context) : Prop where
  formula : ∀ {index f}, c.Cites index f → ∀ s, Γ s → f.holds M s
  subproof : ∀ {index b}, c.CitesSubproof index b → b.Backed M Γ

/-- The flag of the subproof that is cited second is not free in the formula
that is cited first. -/
def FlagApart (c : Context) : Prop :=
  ∀ f b z, c.Cites 0 f → c.CitesSubproof 1 b → b.flag = some z → f.isFree z = false

variable {M : Model.{u}} {Γ : M.Assignment → Prop} {c : Context} {s : M.Assignment}

/-- Two cited formulas are both true. -/
theorem Backed.both (hc : c.Backed M Γ) {f g : Formula} (h : c.CitesBoth f g) (hs : Γ s) :
    f.holds M s ∧ g.holds M s := by
  rcases h with ⟨hf, hg⟩ | ⟨hg, hf⟩
  · exact ⟨hc.formula hf s hs, hc.formula hg s hs⟩
  · exact ⟨hc.formula hf s hs, hc.formula hg s hs⟩

/-- A cited case makes its last line a consequence of its assumption. -/
theorem Backed.case (hc : c.Backed M Γ) {index : Nat} {f g : Formula}
    (h : c.CitesCase index f g) (hs : Γ s) (hf : f.holds M s) : g.holds M s := by
  obtain ⟨b, hb, -, rfl, rfl⟩ := h
  obtain ⟨Δ, hΔ, hlast, -⟩ := hc.subproof hb
  exact hlast s (hΔ s hs) fun _ => hf

end Context

/-! ## §2. The rules that need a fresh variable. -/

namespace Rule

variable {M : Model.{u}} {Γ : M.Assignment → Prop} {c : Context} {s : M.Assignment}

/-- **What holds of a fresh `z` holds of everything.** -/
theorem holds_of_allIntro (hc : c.Backed M Γ) (h : Licenses c allIntro) (hs : Γ s) :
    c.result.holds M s := by
  obtain ⟨x, f, z, b, hb, hassumes, hflag, hfresh, hresult, hescapes, hinstance⟩ := h
  obtain ⟨Δ, hΔ, hlast, hfree⟩ := hc.subproof hb
  rw [hresult] at hescapes ⊢
  intro a
  -- The subproof ends in `f` with `z` for `x`; let `z` stand for `a` there.
  have hz : b.last.holds M (Function.update s z a) := by
    refine hlast _ (hfree z hflag hfresh s a (hΔ s hs)) fun h => ?_
    rw [hassumes] at h
    exact Bool.noConfusion h
  rw [Formula.holds_substitute hinstance, Function.update_self] at hz
  by_cases hx : x = z
  · rwa [hx, Function.update_idem, ← hx] at hz
  · have hbody : f.isFree z = false := by simpa [Formula.isFree, hx] using hescapes
    rw [Function.update_comm (Ne.symm hx)] at hz
    exact (Formula.holds_update_of_not_isFree hbody a).mp hz

/-- **What follows from a fresh instance follows from the existential
formula**, provided that the fresh name is not free in it. -/
theorem holds_of_exElim (hc : c.Backed M Γ) (hapart : c.FlagApart) (h : Licenses c exElim)
    (hs : Γ s) : c.result.holds M s := by
  obtain ⟨x, f, z, b, hex, hb, -, hflag, hfresh, hinstance, hescapes, hresult⟩ := h
  obtain ⟨Δ, hΔ, hlast, hfree⟩ := hc.subproof hb
  obtain ⟨a, ha⟩ := hc.formula hex s hs
  have hz : (Formula.ex x f).isFree z = false := hapart _ b z hex hb hflag
  -- Let `z` stand for the object that the existential formula speaks of.
  have hfirst : b.first.holds M (Function.update s z a) := by
    rw [Formula.holds_substitute hinstance, Function.update_self]
    by_cases hx : x = z
    · rwa [hx, Function.update_idem, ← hx]
    · have hbody : f.isFree z = false := by simpa [Formula.isFree, hx] using hz
      rw [Function.update_comm (Ne.symm hx)]
      exact (Formula.holds_update_of_not_isFree hbody a).mpr ha
  have hend : b.last.holds M (Function.update s z a) :=
    hlast _ (hfree z hflag hfresh s a (hΔ s hs)) fun _ => hfirst
  rw [hresult]
  exact (Formula.holds_update_of_not_isFree hescapes a).mp hend

/-! ## §3. All rules of inference. -/

/-- **A licensed line is true wherever its hypotheses are.**  Premisses and
assumptions are hypotheses themselves and not inferred. -/
theorem holds_of_licenses {rule : Rule} (hpremiss : rule ≠ premiss)
    (hassumption : rule ≠ assumption) (hc : c.Backed M Γ)
    (hapart : rule = exElim → c.FlagApart) (h : Licenses c rule) (hs : Γ s) :
    c.result.holds M s := by
  cases rule with
  | premiss => exact absurd rfl hpremiss
  | assumption => exact absurd rfl hassumption
  | conjIntro =>
      obtain ⟨f, g, hf, hg, hresult⟩ := h
      rw [hresult]
      exact ⟨hc.formula hf s hs, hc.formula hg s hs⟩
  | conjElimLeft =>
      obtain ⟨g, hfg⟩ := h
      exact (hc.formula hfg s hs).1
  | conjElimRight =>
      obtain ⟨f, hfg⟩ := h
      exact (hc.formula hfg s hs).2
  | disjIntroLeft =>
      obtain ⟨f, g, hf, hresult⟩ := h
      rw [hresult]
      exact Or.inl (hc.formula hf s hs)
  | disjIntroRight =>
      obtain ⟨f, g, hg, hresult⟩ := h
      rw [hresult]
      exact Or.inr (hc.formula hg s hs)
  | disjElim =>
      obtain ⟨f, g, hfg, hcaseL, hcaseR⟩ := h
      rcases hc.formula hfg s hs with hf | hg
      · exact hc.case hcaseL hs hf
      · exact hc.case hcaseR hs hg
  | tollendoPonens =>
      obtain ⟨f, hboth | hboth⟩ := h
      · obtain ⟨hor, hnot⟩ := hc.both hboth hs
        exact hor.resolve_left hnot
      · obtain ⟨hor, hnot⟩ := hc.both hboth hs
        exact hor.resolve_right hnot
  | impIntro =>
      obtain ⟨f, g, hcase, hresult⟩ := h
      rw [hresult]
      exact fun hf => hc.case hcase hs hf
  | impElim =>
      obtain ⟨f, hboth⟩ := h
      obtain ⟨himp, hf⟩ := hc.both hboth hs
      exact himp hf
  | modusTollens =>
      obtain ⟨f, g, hboth, hresult⟩ := h
      obtain ⟨himp, hnot⟩ := hc.both hboth hs
      rw [hresult]
      exact fun hf => hnot (himp hf)
  | negIntro =>
      obtain ⟨f, hcase, hresult⟩ := h
      rw [hresult]
      exact fun hf => hc.case hcase hs hf
  | negElim =>
      obtain ⟨⟨f, hboth⟩, -⟩ := h
      obtain ⟨hf, hnot⟩ := hc.both hboth hs
      exact absurd hf hnot
  | doubleNegIntro =>
      obtain ⟨f, hf, hresult⟩ := h
      rw [hresult]
      exact fun hnot => hnot (hc.formula hf s hs)
  | doubleNegElim => exact not_not.mp (hc.formula h s hs)
  | falsityElim => exact absurd (hc.formula h s hs) Formula.holds_falsity
  | allIntro => exact holds_of_allIntro hc h hs
  | allElim =>
      obtain ⟨x, f, t, hall, -, hinstance⟩ := h
      rw [Formula.holds_substitute hinstance]
      exact hc.formula hall s hs (s t)
  | exIntro =>
      obtain ⟨x, f, t, g, hg, hresult, -, hinstance⟩ := h
      rw [hresult]
      exact ⟨s t, (Formula.holds_substitute hinstance).mp (hc.formula hg s hs)⟩
  | exElim => exact holds_of_exElim hc (hapart rfl) h hs
  | identityIntro =>
      obtain ⟨t, hresult⟩ := h
      rw [hresult, Formula.holds_identity]
  | identityElim =>
      obtain ⟨t, u, f, hid, hf, hbecomes⟩ := h
      have htu : s t = s u := Formula.holds_identity.mp (hc.formula hid s hs)
      exact (Formula.holds_becomes hbecomes htu).mp (hc.formula hf s hs)

end Rule

end NaturalDeduction
