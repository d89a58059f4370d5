/-
  NaturalDeduction.Formula.Instance
  ─────────────────────────────────
  **FINDING THE TERM of an instance**: the `t` for which `f` with `t` in place
  of `x` is the formula `g`.

  One walk over both formulas collects what stands in `g` where `x` is free in
  `f`.  The walk does not watch for capture; the substitution that follows it
  does.
-/
import NaturalDeduction.Formula.Substitution

namespace NaturalDeduction.Formula

/-- Compares two lists of terms, collecting the one term that stands in the
second list wherever the first has `var`.  `none` is a mismatch. -/
def seekTerms (var : Name) : List Name → List Name → Option Name → Option (Option Name)
  | [], [], found => some found
  | t :: ts, u :: us, found =>
      if t = var then
        match found with
        | none => seekTerms var ts us (some u)
        | some earlier => if earlier = u then seekTerms var ts us found else none
      else if t = u then seekTerms var ts us found
      else none
  | _, _, _ => none

/-- Compares two formulas in the same way.  Below a quantifier that binds
`var` they have to be alike. -/
def seek (var : Name) : Formula → Formula → Option Name → Option (Option Name)
  | falsity, falsity, found => some found
  | atom p ts, atom q us, found => if p = q then seekTerms var ts us found else none
  | neg f, neg g, found => seek var f g found
  | join op f₁ f₂, join op' g₁ g₂, found =>
      if op = op' then
        match seek var f₁ g₁ found with
        | some found' => seek var f₂ g₂ found'
        | none => none
      else none
  | bind quantifier v f, bind quantifier' w g, found =>
      if quantifier = quantifier' ∧ v = w then
        if v = var then (if f = g then some found else none) else seek var f g found
      else none
  | _, _, _ => none

/-- The term that turns `f` into `g` when it takes the place of `var`.  If
`var` is not free in `f`, any term would do and `var` itself is given. -/
def instanceTerm? (var : Name) (f g : Formula) : Option Name :=
  match seek var f g none with
  | none => none
  | some found =>
      -- The walk ignores capture, so the answer is tried out.
      let term := found.getD var
      if f.substitute var term = some g then some term else none

/-- What is found does turn `f` into `g`. -/
theorem substitute_of_instanceTerm? {var term : Name} {f g : Formula}
    (h : instanceTerm? var f g = some term) : f.substitute var term = some g := by
  unfold instanceTerm? at h
  split at h
  · simp at h
  · next found _ =>
      dsimp only at h
      split at h
      · next hsub => rw [← Option.some.inj h]; exact hsub
      · simp at h

end NaturalDeduction.Formula
