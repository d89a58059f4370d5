/-
  NaturalDeduction.Rule.Violation
  ───────────────────────────────
  Why a line is not a correct use of its rule, and how that is put in words.
-/
import NaturalDeduction.Formula.Printer

namespace NaturalDeduction

/-- A shape that a rule wants of a formula or of a subproof. -/
inductive Shape where
  | conjunction
  | disjunction
  | implication
  | subproofOfFalsity
  | doubleNegation
  | falsity
  | universal
  | existential
  | identity
  | selfIdentity
deriving DecidableEq

/-- How a message speaks of a shape. -/
def Shape.describe : Shape → String
  | conjunction => "a conjunction"
  | disjunction => "a disjunction"
  | implication => "an implication"
  | subproofOfFalsity => "a subproof ending in `0`"
  | doubleNegation => "a double negation"
  | falsity => "`0`"
  | universal => "a universal formula"
  | existential => "an existential formula"
  | identity => "an identity"
  | selfIdentity => "an identity `t = t`"

/-- Why a rule does not apply although all that it cites is there. -/
inductive Inapplicable where
  | tollendoPonens
  | modusTollens
  | assumingSubproof
  | identityUnused
deriving DecidableEq

/-- The message for a rule that does not apply. -/
def Inapplicable.message : Inapplicable → String
  | tollendoPonens => "`v-mtp` needs a disjunction and the negation of one of its sides"
  | modusTollens => "`>-mt` needs an implication and the negation of its consequent"
  | assumingSubproof => "the subproof for `A-i` must not make an assumption"
  | identityUnused => "the line is not the cited formula with the identity applied"

/-- Why a line is not a correct use of its rule.  Citations are counted from
zero. -/
inductive Violation where
  | missingCitation (index : Nat)
  | missingSubproof (index : Nat)
  | missingAssumption (index : Nat)
  | wrongShape (index : Nat) (expected : Shape) (found : Formula)
  | resultShape (expected : Shape)
  | mismatch (expected found : Formula)
  | noContradiction (first second : Formula)
  | inapplicable (reason : Inapplicable)
  | premissInSubproof
  | missingFlag
  | notFresh (var : Name)
  | flagEscapes (var : Name)
  | wrongSubstitution (term var bound : Name)
  | notAnInstance (general found : Formula)
deriving DecidableEq

namespace Violation

/-- The place of a citation as a reader counts it. -/
def ordinal (index : Nat) : String := Nat.repr (index + 1)

/-- The message for a violation. -/
def message : Violation → String
  | missingCitation index =>
      "dependency " ++ ordinal index ++ " is missing or not available here"
  | missingSubproof index =>
      "dependency " ++ ordinal index ++ " must cite a closed subproof as `start-end`"
  | missingAssumption index =>
      "the subproof cited by dependency " ++ ordinal index
        ++ " must start with `-assumption`"
  | wrongShape index expected found =>
      "dependency " ++ ordinal index ++ " should be " ++ expected.describe
        ++ ", but it is `" ++ found.render ++ "`"
  | resultShape expected => "the line should be " ++ expected.describe
  | mismatch expected found =>
      "expected `" ++ expected.render ++ "`, but found `" ++ found.render ++ "`"
  | noContradiction first second =>
      "`" ++ first.render ++ "` and `" ++ second.render ++ "` do not contradict each other"
  | inapplicable reason => reason.message
  | premissInSubproof => "premisses must stay outside every subproof"
  | missingFlag => "the subproof must be opened with a fresh variable"
  | notFresh var => "variable `" ++ var ++ "` is already used outside the subproof"
  | flagEscapes var => "variable `" ++ var ++ "` escapes its subproof"
  | wrongSubstitution term var bound =>
      "substitution `[" ++ term ++ "/" ++ var
        ++ "]` does not replace the bound variable `" ++ bound ++ "`"
  | notAnInstance general found =>
      "`" ++ found.render ++ "` is not an instance of `" ++ general.render ++ "`"

/-- Is it a citation that is at fault, and not the line's own formula? -/
def blamesCitation : Violation → Bool
  | missingCitation _ | missingSubproof _ | missingAssumption _ | wrongShape _ _ _ => true
  | _ => false

end Violation

end NaturalDeduction
