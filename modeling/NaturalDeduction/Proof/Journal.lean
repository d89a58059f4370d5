/-
  NaturalDeduction.Proof.Journal
  ──────────────────────────────
  What happens in the course of a check, for those who want to follow it: the
  citations that rules look up, and the lines that are accepted.
-/
import NaturalDeduction.Proof.Source

namespace NaturalDeduction

/-- Something that happens in the course of a check. -/
inductive CheckEvent where
  /-- A rule looks up the citation at a place of a line. -/
  | lookedUp (number index : Nat)
  /-- A line is accepted. -/
  | verified (number : Nat) (formula : Formula) (rule : Rule)
deriving DecidableEq

namespace ProofState

/-- What happens when lines are taken up one after the other. -/
def eventsFrom (options : CheckOptions) (s : ProofState) : List ProofLine → List CheckEvent
  | [] => []
  | line :: rest =>
      match s.place options line with
      | .error _ => []
      | .ok placed =>
          let context := placed.state.context line placed.formula
          let lookups := (placed.rule.reads context).map (CheckEvent.lookedUp line.number)
          match placed.rule.check context with
          | .error _ => lookups
          | .ok () =>
              lookups ++ .verified line.number placed.formula placed.rule ::
                eventsFrom options (placed.state.accept line.number placed.formula) rest

end ProofState

/-- What happens when the text of a proof is checked.  Nothing does if one of
its lines is malformed. -/
def sourceEvents (options : CheckOptions) (text : String) : List CheckEvent :=
  match readProof text with
  | .error _ => []
  | .ok lines => ProofState.eventsFrom options .empty (lines.map LocatedLine.line)

end NaturalDeduction
