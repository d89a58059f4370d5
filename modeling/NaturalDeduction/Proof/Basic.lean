/-
  NaturalDeduction.Proof.Basic
  ────────────────────────────
  **CHECKING A PROOF, line by line.**

  A line is taken up in five steps, and the first that fails settles the
  matter: its number must be new (and, under strict order, greater than the
  last), its formula must read, its rule must exist, it must fit the subproofs
  around it, and it must keep its rule.  A line that passes is recorded; the
  first line that does not ends the check.
-/
import NaturalDeduction.Formula.Parser
import NaturalDeduction.Line.Basic
import NaturalDeduction.Rule.Check
import NaturalDeduction.Subproof.Basic

namespace NaturalDeduction

/-! ## §1. Options and failures. -/

/-- How strictly a proof is read. -/
structure CheckOptions where
  /-- Must line numbers increase? -/
  strictOrder : Bool := true
  /-- Must a formula end where its text ends? -/
  exactFormulas : Bool := true
deriving DecidableEq

/-- Why a line was not accepted. -/
inductive FailureCause where
  | unreadable (error : Unexpected)
  | unknownRule
  | violation (violation : Violation)
  | lineOrder (previous : Nat)
  | duplicate
  | misplaced (fault : StructureFault)
deriving DecidableEq

/-- The message for a cause. -/
def FailureCause.message : FailureCause → String
  | unreadable error => "could not parse formula: " ++ error.message
  | unknownRule => "unknown rule"
  | violation v => v.message
  | lineOrder previous =>
      "line numbers must increase, but line " ++ Nat.repr previous ++ " came before"
  | duplicate => "line number already used"
  | misplaced fault => fault.message

/-- The first line that was not accepted. -/
structure CheckFailure where
  /-- How many lines were accepted before it. -/
  index : Nat
  number : Nat
  ruleText : String
  cause : FailureCause
  /-- The bytes at fault, counted from the start of the line. -/
  span : Span
deriving DecidableEq

/-- The message for a failure. -/
def CheckFailure.message (failure : CheckFailure) : String :=
  "line " ++ Nat.repr failure.number ++ " (" ++ failure.ruleText ++ "): "
    ++ failure.cause.message

/-! ## §2. The state of a check. -/

/-- The part of a line that places it among the subproofs. -/
def ProofLine.entry (line : ProofLine) : Entry where
  number := line.number
  depth := line.depth
  flag := line.flag
  assumes := line.ruleText = Rule.assumption.name

/-- The lines accepted so far and the subproofs around the next one. -/
structure ProofState where
  /-- The formulas by line number; the latest entry for a line counts. -/
  formulas : List (Nat × Formula)
  /-- The numbers of the lines, in the order in which they were accepted. -/
  order : List Nat
  /-- The number of the line accepted last. -/
  lastLine : Option Nat
  scopes : Scopes
deriving DecidableEq

namespace ProofState

/-- Before the first line. -/
def empty : ProofState := ⟨[], [], none, .empty⟩

/-- The formula accepted at a line, whether or not it can be seen. -/
def formula? (s : ProofState) (number : Nat) : Option Formula := s.formulas.lookup number

/-- The formula at a line that can be seen from the current place. -/
def visible? (s : ProofState) (number : Nat) : Option Formula :=
  if s.scopes.isVisible number then s.formula? number else none

/-- The closed subproof from one line to another, with their formulas. -/
def subproof? (s : ProofState) (first last : Nat) : Option CitedSubproof :=
  match s.scopes.closed? first last, s.formula? first, s.formula? last with
  | some subproof, some f, some g =>
      some ⟨f, g, subproof.flag, subproof.assumes, subproof.flagFresh⟩
  | _, _, _ => none

/-- What a citation leads to from the current place. -/
def cite (s : ProofState) : Option Citation → Cited
  | none => .nothing
  | some (.line number substitution) => ⟨s.visible? number, none, substitution⟩
  | some (.subproof first last) => ⟨s.visible? first, s.subproof? first last, none⟩

/-- What the rule of a line looks at from the current place. -/
def context (s : ProofState) (line : ProofLine) (formula : Formula) : Context :=
  ⟨line.depth, formula, line.citations.map s.cite⟩

/-! ## §3. One line. -/

/-- Is the number of a line in order? -/
def checkOrder (options : CheckOptions) (s : ProofState) (line : ProofLine) :
    Except FailureCause Unit :=
  if (s.formula? line.number).isSome then .error .duplicate
  else if options.strictOrder then
    match s.lastLine with
    | some previous =>
        if line.number ≤ previous then .error (.lineOrder previous) else .ok ()
    | none => .ok ()
  else .ok ()

/-- The formula of a line. -/
def readFormula (options : CheckOptions) (line : ProofLine) : Except Unexpected Formula :=
  if options.exactFormulas then Formula.parseExact line.formulaText
  else Formula.parse line.formulaText

/-- A line that has been read and placed among the subproofs, but not yet
judged by its rule. -/
structure Placed where
  rule : Rule
  formula : Formula
  /-- The state with the line's subproofs opened and closed. -/
  state : ProofState

/-- Takes a line up to the point where its rule decides. -/
def place (options : CheckOptions) (s : ProofState) (line : ProofLine) :
    Except (FailureCause × Span) Placed :=
  match checkOrder options s line with
  | .error cause => .error (cause, line.spans.line)
  | .ok () =>
      match readFormula options line with
      | .error e => .error (.unreadable e, e.span.forward line.spans.formula.start)
      | .ok formula =>
          match Rule.ofName? line.ruleText with
          | none => .error (.unknownRule, line.spans.rule)
          | some rule =>
              match s.scopes.enter s.formula? line.entry with
              -- The check ends here, so the subproofs that were closed do not matter.
              | (.error fault, _) => .error (.misplaced fault, line.spans.line)
              | (.ok (), scopes) => .ok ⟨rule, formula, { s with scopes }⟩

/-- Puts an accepted line on record. -/
def accept (s : ProofState) (number : Nat) (formula : Formula) : ProofState where
  formulas := (number, formula) :: s.formulas
  order := s.order ++ [number]
  lastLine := some number
  scopes := s.scopes.record number

/-- Takes up one line: the state behind it, or why it was not accepted and
where. -/
def step (options : CheckOptions) (s : ProofState) (line : ProofLine) :
    Except (FailureCause × Span) ProofState :=
  match s.place options line with
  | .error e => .error e
  | .ok placed =>
      match placed.rule.check (placed.state.context line placed.formula) with
      | .error v =>
          let span := if v.blamesCitation then line.spans.citations else line.spans.formula
          .error (.violation v, span)
      | .ok () => .ok (placed.state.accept line.number placed.formula)

/-! ## §4. All lines. -/

/-- Takes up lines one after the other, where `index` lines came before. -/
def runFrom (options : CheckOptions) (s : ProofState) (index : Nat) :
    List ProofLine → Except CheckFailure ProofState
  | [] => .ok s
  | line :: rest =>
      match s.step options line with
      | .error (cause, span) => .error ⟨index, line.number, line.ruleText, cause, span⟩
      | .ok s' => runFrom options s' (index + 1) rest

/-- The state behind all lines of a proof. -/
def run (options : CheckOptions) (lines : List ProofLine) : Except CheckFailure ProofState :=
  runFrom options .empty 0 lines

end ProofState

/-- The lines of an accepted proof. -/
structure VerifiedProof where
  /-- The formulas by line number; the latest entry for a line counts. -/
  formulas : List (Nat × Formula)
  /-- The numbers of the lines, in order. -/
  order : List Nat
deriving DecidableEq

namespace VerifiedProof

/-- The formula at a line. -/
def formula? (proof : VerifiedProof) (number : Nat) : Option Formula :=
  proof.formulas.lookup number

/-- The number of lines. -/
def length (proof : VerifiedProof) : Nat := proof.order.length

/-- Has the proof no lines? -/
def isEmpty (proof : VerifiedProof) : Bool := proof.order.isEmpty

/-- The formula of the last line. -/
def conclusion? (proof : VerifiedProof) : Option Formula :=
  proof.order.getLast?.bind proof.formula?

/-- The lines in order, each with its formula. -/
def lines (proof : VerifiedProof) : List (Nat × Formula) :=
  proof.order.filterMap fun number => (proof.formula? number).map fun f => (number, f)

end VerifiedProof

/-- What a check leaves behind when all lines are accepted. -/
def ProofState.finish (s : ProofState) : VerifiedProof := ⟨s.formulas, s.order⟩

/-- **Checks the lines of a proof**, up to the first that is not accepted. -/
def check (options : CheckOptions) (lines : List ProofLine) :
    Except CheckFailure VerifiedProof :=
  match ProofState.run options lines with
  | .error failure => .error failure
  | .ok s => .ok s.finish

end NaturalDeduction
