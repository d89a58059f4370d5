/-
  NaturalDeduction.Formula.Basic
  ──────────────────────────────
  **FORMULAS of first-order logic with identity.**

  Terms are bare names: variables, constants and numerals are not told apart
  until a quantifier binds one of them.  Two formulas are equal when they are
  written alike: bound variables count by name, so `forall(x) P(x)` and
  `forall(y) P(y)` differ.
-/

namespace NaturalDeduction

/-- A name of an object, of a predicate or of a variable. -/
abbrev Name := String

/-- The connectives that join two formulas. -/
inductive Connective where
  | conj
  | disj
  | imp
deriving DecidableEq

/-- The quantifiers. -/
inductive Quantifier where
  | all
  | ex
deriving DecidableEq

/-- Formulas.  An identity is an atom whose predicate is `=`. -/
inductive Formula where
  | falsity
  | atom (predicate : Name) (terms : List Name)
  | neg (inner : Formula)
  | join (op : Connective) (left right : Formula)
  | bind (quantifier : Quantifier) (var : Name) (body : Formula)
deriving DecidableEq

namespace Formula

/-- The formula that says both. -/
@[match_pattern] abbrev conj (left right : Formula) : Formula := join .conj left right

/-- The formula that says at least one. -/
@[match_pattern] abbrev disj (left right : Formula) : Formula := join .disj left right

/-- The formula that says the second if the first. -/
@[match_pattern] abbrev imp (left right : Formula) : Formula := join .imp left right

/-- The formula that says `body` of everything. -/
@[match_pattern] abbrev all (var : Name) (body : Formula) : Formula := bind .all var body

/-- The formula that says `body` of something. -/
@[match_pattern] abbrev ex (var : Name) (body : Formula) : Formula := bind .ex var body

/-- The predicate of an identity. -/
def identityName : Name := "="

/-- The formula that says two names stand for one object. -/
def identity (left right : Name) : Formula := atom identityName [left, right]

/-- The two sides of an identity. -/
def identity? : Formula → Option (Name × Name)
  | atom predicate [left, right] =>
      if predicate = identityName then some (left, right) else none
  | _ => none

@[simp] theorem identity?_identity (left right : Name) :
    (identity left right).identity? = some (left, right) := by
  simp [identity, identity?]

/-- Only an identity has two sides. -/
theorem eq_identity_of_identity? {f : Formula} {left right : Name}
    (h : f.identity? = some (left, right)) : f = identity left right := by
  unfold identity? at h
  split at h
  · next predicate l r =>
      split at h
      · next hp => simp only [Option.some.injEq, Prod.mk.injEq] at h
                   rw [hp, h.1, h.2, identity]
      · simp at h
  · simp at h

end Formula

end NaturalDeduction
