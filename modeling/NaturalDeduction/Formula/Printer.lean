/-
  NaturalDeduction.Formula.Printer
  ────────────────────────────────
  The written form of a formula.

  Every joined pair stands in parentheses of its own, so the written form
  needs no precedence to be read back.
-/
import NaturalDeduction.Formula.Basic

namespace NaturalDeduction

/-- The sign of a connective. -/
def Connective.sign : Connective → String
  | conj => "&"
  | disj => "v"
  | imp => ">"

/-- The word of a quantifier. -/
def Quantifier.word : Quantifier → String
  | all => "forall"
  | ex => "exists"

namespace Formula

/-- The written form of an atom: `a = b`, a bare name, or a name with its terms
in parentheses. -/
def renderAtom (predicate : Name) : List Name → String
  | [] => predicate
  | [left, right] =>
      if predicate = identityName then left ++ " = " ++ right
      else predicate ++ "(" ++ left ++ ", " ++ right ++ ")"
  | terms => predicate ++ "(" ++ String.intercalate ", " terms ++ ")"

/-- The written form of a formula. -/
def render : Formula → String
  | falsity => "0"
  | atom predicate terms => renderAtom predicate terms
  | neg inner => "~" ++ inner.render
  | join op left right => "(" ++ left.render ++ " " ++ op.sign ++ " " ++ right.render ++ ")"
  | bind quantifier var body => quantifier.word ++ "(" ++ var ++ ") " ++ body.render

end Formula

end NaturalDeduction
