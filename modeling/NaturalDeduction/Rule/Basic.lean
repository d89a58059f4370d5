/-
  NaturalDeduction.Rule.Basic
  ───────────────────────────
  **THE RULES OF INFERENCE and the names they go by in a proof line.**

  Two rules have a dashed word for a name: `-premiss` and `-assumption`.  The
  others are named after the connective that they introduce or eliminate.
-/

namespace NaturalDeduction

/-- The rules of the calculus. -/
inductive Rule where
  | premiss
  | assumption
  | conjIntro
  | conjElimLeft
  | conjElimRight
  | disjIntroLeft
  | disjIntroRight
  | disjElim
  | tollendoPonens
  | impIntro
  | impElim
  | modusTollens
  | negIntro
  | negElim
  | doubleNegIntro
  | doubleNegElim
  | falsityElim
  | allIntro
  | allElim
  | exIntro
  | exElim
  | identityIntro
  | identityElim
deriving DecidableEq

namespace Rule

/-- The name of a rule in a proof line. -/
def name : Rule → String
  | premiss => "-premiss"
  | assumption => "-assumption"
  | conjIntro => "&-i"
  | conjElimLeft => "&-e1"
  | conjElimRight => "&-e2"
  | disjIntroLeft => "v-i1"
  | disjIntroRight => "v-i2"
  | disjElim => "v-e"
  | tollendoPonens => "v-mtp"
  | impIntro => ">-i"
  | impElim => ">-e"
  | modusTollens => ">-mt"
  | negIntro => "~-i"
  | negElim => "~-e"
  | doubleNegIntro => "~~-i"
  | doubleNegElim => "~~-e"
  | falsityElim => "0-e"
  | allIntro => "A-i"
  | allElim => "A-e"
  | exIntro => "E-i"
  | exElim => "E-e"
  | identityIntro => "id-i"
  | identityElim => "id-e"

/-- The rules with a symbolic name, that is all but `-premiss` and
`-assumption`. -/
def symbolic : List Rule :=
  [tollendoPonens, doubleNegIntro, doubleNegElim, conjElimLeft, conjElimRight,
   disjIntroLeft, disjIntroRight, modusTollens, identityIntro, identityElim,
   conjIntro, disjElim, impIntro, impElim, negIntro, negElim, falsityElim,
   allIntro, allElim, exIntro, exElim]

/-- Every rule, once. -/
def all : List Rule := premiss :: assumption :: symbolic

/-- The rule that goes by a name. -/
def ofName? (name : String) : Option Rule := all.find? fun rule => rule.name = name

/-- **A rule is found by its own name.** -/
@[simp] theorem ofName?_name (rule : Rule) : ofName? rule.name = some rule := by
  cases rule <;> decide

/-- Nothing but its own name leads to a rule. -/
theorem name_of_ofName? {name : String} {rule : Rule} (h : ofName? name = some rule) :
    rule.name = name := by
  simpa using List.find?_some h

end Rule

end NaturalDeduction
