/-
  NaturalDeduction.Formula.Replacement
  ────────────────────────────────
  Replacing some occurrences of one name by another.

  This is what an identity `a = b` licenses: any of the free occurrences of
  `a` may become `b`.  Below a quantifier that binds `a` or `b` nothing is
  replaced.
-/
import NaturalDeduction.Formula.Basic

namespace NaturalDeduction.Formula

/-- Do the terms agree, but for some `old` that became `new`? -/
def termsBecome (old new : Name) : List Name → List Name → Bool
  | [], [] => true
  | t :: ts, u :: us => (t = u || (t = old && u = new)) && termsBecome old new ts us
  | _, _ => false

/-- Is the second formula the first with zero or more free occurrences of `old`
replaced by `new`? -/
def becomes (old new : Name) : Formula → Formula → Bool
  | falsity, falsity => true
  | atom p ts, atom q us => p = q && termsBecome old new ts us
  | neg f, neg g => becomes old new f g
  | join op f₁ f₂, join op' g₁ g₂ =>
      op = op' && becomes old new f₁ g₁ && becomes old new f₂ g₂
  | bind quantifier v f, bind quantifier' w g =>
      quantifier = quantifier' && v = w &&
        (if v = old || v = new then f = g else becomes old new f g)
  | _, _ => false

end NaturalDeduction.Formula
