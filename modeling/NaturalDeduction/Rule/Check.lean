/-
  NaturalDeduction.Rule.Check
  ───────────────────────────
  **ONE CHECK PER RULE.**

  A check sees the line's depth, its formula, and what its citations lead to:
  for each of them the formula of a visible line, a closed subproof, and the
  substitution noted on it, as far as there are any.  Nothing else of the proof
  matters to a rule.
-/
import NaturalDeduction.Formula.Instance
import NaturalDeduction.Formula.Replacement
import NaturalDeduction.Line.Citation
import NaturalDeduction.Rule.Basic
import NaturalDeduction.Rule.Violation

namespace NaturalDeduction

/-! ## §1. What a rule looks at. -/

/-- A closed subproof as a rule sees it. -/
structure CitedSubproof where
  first : Formula
  last : Formula
  flag : Option Name
  assumes : Bool
  flagFresh : Bool
deriving DecidableEq

/-- What a citation leads to. -/
structure Cited where
  /-- The formula of the line that the citation starts with, if it is visible. -/
  formula? : Option Formula
  /-- The closed subproof that the citation names. -/
  subproof? : Option CitedSubproof
  /-- The substitution noted on the citation. -/
  substitution? : Option Substitution
deriving DecidableEq

/-- A citation that leads nowhere. -/
def Cited.nothing : Cited := ⟨none, none, none⟩

/-- All that a rule looks at. -/
structure Context where
  depth : Nat
  result : Formula
  cited : List Cited
deriving DecidableEq

/-- A rule is kept, or this is what is wrong. -/
abbrev Verdict := Except Violation Unit

namespace Context

/-- What the citation at a place leads to. -/
def citedAt (c : Context) (index : Nat) : Cited := c.cited[index]?.getD .nothing

/-- The formula that a citation leads to. -/
def formula (c : Context) (index : Nat) : Except Violation Formula :=
  match (c.citedAt index).formula? with
  | some f => .ok f
  | none => .error (.missingCitation index)

/-- The closed subproof that a citation leads to. -/
def subproof (c : Context) (index : Nat) : Except Violation CitedSubproof :=
  match (c.citedAt index).subproof? with
  | some s => .ok s
  | none => .error (.missingSubproof index)

/-- The closed subproof that a citation leads to, which has to start with an
assumption. -/
def hypothetical (c : Context) (index : Nat) : Except Violation CitedSubproof :=
  match c.subproof index with
  | .error v => .error v
  | .ok s => if s.assumes then .ok s else .error (.missingAssumption index)

/-- The line's formula has to be this one. -/
def conclude (c : Context) (expected : Formula) : Verdict :=
  if c.result = expected then .ok () else .error (.mismatch expected c.result)

end Context

namespace Rule

/-! ## §2. Conjunction and disjunction. -/

/-- From `A` and `B` infer `A & B`. -/
def checkConjIntro (c : Context) : Verdict := do
  let left ← c.formula 0
  let right ← c.formula 1
  c.conclude (.conj left right)

/-- A side of a conjunction or a disjunction. -/
inductive Side where
  | left
  | right
deriving DecidableEq

/-- Of two formulas the one on this side. -/
def Side.pick : Side → Formula → Formula → Formula
  | left, f, _ => f
  | right, _, g => g

/-- From `A & B` infer one side of it. -/
def checkConjElim (side : Side) (c : Context) : Verdict := do
  match ← c.formula 0 with
  | .conj left right => c.conclude (side.pick left right)
  | found => .error (.wrongShape 0 .conjunction found)

/-- Infer `A v B` from one side of it. -/
def checkDisjIntro (side : Side) (c : Context) : Verdict := do
  let parent ← c.formula 0
  match c.result with
  | .disj left right =>
      if side.pick left right = parent then .ok ()
      else .error (.mismatch parent (side.pick left right))
  | _ => .error (.resultShape .disjunction)

/-- From `A v B`, a subproof of `C` from `A` and one of `C` from `B` infer
`C`. -/
def checkDisjElim (c : Context) : Verdict := do
  match ← c.formula 0 with
  | .disj left right =>
      let leftCase ← c.hypothetical 1
      let rightCase ← c.hypothetical 2
      if leftCase.first ≠ left then .error (.mismatch left leftCase.first)
      else if rightCase.first ≠ right then .error (.mismatch right rightCase.first)
      else if leftCase.last ≠ rightCase.last then
        .error (.mismatch leftCase.last rightCase.last)
      else c.conclude leftCase.last
  | found => .error (.wrongShape 0 .disjunction found)

/-- What a disjunction and the negation of one of its sides yield: the other
side. -/
def otherSide? : Formula → Formula → Option Formula
  | .disj left right, .neg denied =>
      if denied = left then some right else if denied = right then some left else none
  | _, _ => none

/-- From `A v B` and the negation of one side infer the other side. -/
def checkTollendoPonens (c : Context) : Verdict := do
  let first ← c.formula 0
  let second ← c.formula 1
  match (otherSide? first second).or (otherSide? second first) with
  | some expected => c.conclude expected
  | none => .error (.inapplicable .tollendoPonens)

/-! ## §3. Implication. -/

/-- From a subproof of `B` from `A` infer `A > B`. -/
def checkImpIntro (c : Context) : Verdict := do
  let cited ← c.hypothetical 0
  c.conclude (.imp cited.first cited.last)

/-- What an implication and its antecedent yield: the consequent. -/
def consequent? : Formula → Formula → Option Formula
  | .imp left right, antecedent => if left = antecedent then some right else none
  | _, _ => none

/-- From `A > B` and `A`, in either order, infer `B`. -/
def checkImpElim (c : Context) : Verdict := do
  let first ← c.formula 0
  let second ← c.formula 1
  match (consequent? first second).or (consequent? second first) with
  | some expected => c.conclude expected
  | none =>
      -- An implication whose antecedent differs is blamed, the first one if there are two.
      match first, second with
      | .imp left _, _ => .error (.mismatch left second)
      | _, .imp left _ => .error (.mismatch left first)
      | _, _ => .error (.wrongShape 0 .implication first)

/-- What an implication and the negation of its consequent yield: the negation
of the antecedent. -/
def deniedAntecedent? : Formula → Formula → Option Formula
  | .imp left right, .neg denied => if denied = right then some (.neg left) else none
  | _, _ => none

/-- From `A > B` and `~B`, in either order, infer `~A`. -/
def checkModusTollens (c : Context) : Verdict := do
  let first ← c.formula 0
  let second ← c.formula 1
  match (deniedAntecedent? first second).or (deniedAntecedent? second first) with
  | some expected => c.conclude expected
  | none => .error (.inapplicable .modusTollens)

/-! ## §4. Negation and falsity. -/

/-- From a subproof of `0` from `A` infer `~A`. -/
def checkNegIntro (c : Context) : Verdict := do
  let cited ← c.hypothetical 0
  if cited.last ≠ .falsity then .error (.wrongShape 0 .subproofOfFalsity cited.last)
  else c.conclude (.neg cited.first)

/-- Is one formula the negation of the other? -/
def contradict (f g : Formula) : Bool := f = .neg g || g = .neg f

/-- From `A` and `~A`, in either order, infer `0`. -/
def checkNegElim (c : Context) : Verdict := do
  if c.result ≠ .falsity then .error (.resultShape .falsity)
  else
    let first ← c.formula 0
    let second ← c.formula 1
    if contradict first second then .ok () else .error (.noContradiction first second)

/-- From `A` infer `~~A`. -/
def checkDoubleNegIntro (c : Context) : Verdict := do
  let parent ← c.formula 0
  c.conclude (.neg (.neg parent))

/-- From `~~A` infer `A`. -/
def checkDoubleNegElim (c : Context) : Verdict := do
  match ← c.formula 0 with
  | .neg (.neg inner) => c.conclude inner
  | found => .error (.wrongShape 0 .doubleNegation found)

/-- From `0` infer anything. -/
def checkFalsityElim (c : Context) : Verdict := do
  match ← c.formula 0 with
  | .falsity => .ok ()
  | found => .error (.wrongShape 0 .falsity found)

/-! ## §5. Quantifiers. -/

/-- The variable of a substitution has to be the bound one. -/
def checkBound (substitution : Substitution) (bound : Name) : Verdict :=
  if substitution.var = bound then .ok ()
  else .error (.wrongSubstitution substitution.term substitution.var bound)

/-- From a subproof of `F` with a fresh `z` for `x` infer `forall(x) F`. -/
def checkAllIntro (c : Context) : Verdict := do
  let cited ← c.subproof 0
  match cited.flag with
  | none => .error .missingFlag
  | some flag =>
      if cited.assumes then .error (.inapplicable .assumingSubproof)
      else if !cited.flagFresh then .error (.notFresh flag)
      else
        match c.result with
        | .all var body =>
            if c.result.isFree flag then .error (.flagEscapes flag)
            else if body.substitute var flag = some cited.last then .ok ()
            else .error (.notAnInstance c.result cited.last)
        | _ => .error (.resultShape .universal)

/-- From `forall(x) F` infer `F` with any term for `x`. -/
def checkAllElim (c : Context) : Verdict := do
  match ← c.formula 0 with
  | .all var body =>
      match (c.citedAt 0).substitution? with
      | some substitution =>
          checkBound substitution var
          match body.substitute var substitution.term with
          | some expected => c.conclude expected
          | none => .error (.notAnInstance (.all var body) c.result)
      | none =>
          if (body.instanceTerm? var c.result).isSome then .ok ()
          else .error (.notAnInstance (.all var body) c.result)
  | found => .error (.wrongShape 0 .universal found)

/-- From `F` with some term for `x` infer `exists(x) F`. -/
def checkExIntro (c : Context) : Verdict := do
  let parent ← c.formula 0
  match c.result with
  | .ex var body =>
      match (c.citedAt 0).substitution? with
      | some substitution =>
          checkBound substitution var
          if body.substitute var substitution.term = some parent then .ok ()
          else .error (.notAnInstance c.result parent)
      | none =>
          if (body.instanceTerm? var parent).isSome then .ok ()
          else .error (.notAnInstance c.result parent)
  | _ => .error (.resultShape .existential)

/-- From `exists(x) F` and a subproof of `C` from `F` with a fresh `z` for `x`
infer `C`. -/
def checkExElim (c : Context) : Verdict := do
  match ← c.formula 0 with
  | .ex var body =>
      let cited ← c.hypothetical 1
      match cited.flag with
      | none => .error .missingFlag
      | some flag =>
          if !cited.flagFresh then .error (.notFresh flag)
          else
            match body.substitute var flag with
            | none => .error (.notAnInstance (.ex var body) cited.first)
            | some expected =>
                if expected ≠ cited.first then .error (.mismatch expected cited.first)
                else if cited.last.isFree flag then .error (.flagEscapes flag)
                else c.conclude cited.last
  | found => .error (.wrongShape 0 .existential found)

/-! ## §6. Identity. -/

/-- Infer `t = t`. -/
def checkIdentityIntro (c : Context) : Verdict :=
  match c.result.identity? with
  | some (left, right) =>
      if left = right then .ok () else .error (.resultShape .selfIdentity)
  | none => .error (.resultShape .selfIdentity)

/-- From `t = s` and `F` infer `F` with some `t` replaced by `s`. -/
def checkIdentityElim (c : Context) : Verdict := do
  let identity ← c.formula 0
  match identity.identity? with
  | none => .error (.wrongShape 0 .identity identity)
  | some (old, new) =>
      let formula ← c.formula 1
      if formula.becomes old new c.result then .ok ()
      else .error (.inapplicable .identityUnused)

/-! ## §7. The table of rules. -/

/-- A premiss stands outside every subproof. -/
def checkPremiss (c : Context) : Verdict :=
  if 0 < c.depth then .error .premissInSubproof else .ok ()

/-- **Does the line keep its rule?** -/
def check : Rule → Context → Verdict
  | premiss => checkPremiss
  | assumption => fun _ => .ok ()
  | conjIntro => checkConjIntro
  | conjElimLeft => checkConjElim .left
  | conjElimRight => checkConjElim .right
  | disjIntroLeft => checkDisjIntro .left
  | disjIntroRight => checkDisjIntro .right
  | disjElim => checkDisjElim
  | tollendoPonens => checkTollendoPonens
  | impIntro => checkImpIntro
  | impElim => checkImpElim
  | modusTollens => checkModusTollens
  | negIntro => checkNegIntro
  | negElim => checkNegElim
  | doubleNegIntro => checkDoubleNegIntro
  | doubleNegElim => checkDoubleNegElim
  | falsityElim => checkFalsityElim
  | allIntro => checkAllIntro
  | allElim => checkAllElim
  | exIntro => checkExIntro
  | exElim => checkExElim
  | identityIntro => checkIdentityIntro
  | identityElim => checkIdentityElim

/-- The formulas that two citations lead to are looked up one after the other;
the second is not reached when the first is missing. -/
def readsBoth (c : Context) : List Nat :=
  if (c.citedAt 0).formula?.isSome then [0, 1] else [0]

/-- The places of the citations whose formulas a check looks up, in order. -/
def reads : Rule → Context → List Nat
  | premiss, _ | assumption, _ | impIntro, _ | negIntro, _ | allIntro, _ | identityIntro, _ => []
  | conjIntro, c | tollendoPonens, c | impElim, c | modusTollens, c => readsBoth c
  | negElim, c => if c.result = .falsity then readsBoth c else []
  | identityElim, c =>
      if ((c.citedAt 0).formula?.bind Formula.identity?).isSome then [0, 1] else [0]
  | _, _ => [0]

end Rule

end NaturalDeduction
