/-
  NaturalDeduction.Proof.Source
  ─────────────────────────────
  Checking the text of a proof.

  Blank lines are skipped.  All lines are cut into their parts before the
  first of them is checked, so a malformed line anywhere is reported ahead of
  any fault in the reasoning.
-/
import NaturalDeduction.Proof.Basic
import NaturalDeduction.Text.Lines

namespace NaturalDeduction

/-- Why the text of a proof was rejected.  `offset` is where the line at fault
starts. -/
inductive SourceFailure where
  | malformed (offset : Nat) (fault : LineFault)
  | rejected (offset : Nat) (failure : CheckFailure)
deriving DecidableEq

namespace SourceFailure

/-- Where the line at fault starts. -/
def offset : SourceFailure → Nat
  | malformed offset _ => offset
  | rejected offset _ => offset

/-- The bytes at fault, counted from the start of the text. -/
def span : SourceFailure → Span
  | malformed offset fault => fault.span.forward offset
  | rejected offset failure => failure.span.forward offset

/-- The message for a rejected text. -/
def message : SourceFailure → String
  | malformed _ fault => fault.message
  | rejected _ failure => failure.message

end SourceFailure

/-- A proof line and where it starts. -/
structure LocatedLine where
  offset : Nat
  line : ProofLine
deriving DecidableEq

/-- Cuts lines of text into their parts, up to the first that is malformed. -/
def readLines : List TextLine → Except SourceFailure (List LocatedLine)
  | [] => .ok []
  | raw :: rest =>
      match ProofLine.parse raw.text with
      | .error fault => .error (.malformed raw.offset fault)
      | .ok line =>
          match readLines rest with
          | .error failure => .error failure
          | .ok lines => .ok (⟨raw.offset, line⟩ :: lines)

/-- The lines of a text that are not blank. -/
def contentLines (text : String) : List TextLine :=
  (textLines text.toList).filter fun line => !line.isBlank

/-- The proof lines of a text. -/
def readProof (text : String) : Except SourceFailure (List LocatedLine) :=
  readLines (contentLines text)

/-- The place of a failure in the text. -/
def locate (lines : List LocatedLine) (failure : CheckFailure) : SourceFailure :=
  .rejected ((lines[failure.index]?.map LocatedLine.offset).getD 0) failure

/-- **Checks the text of a proof.** -/
def checkSource (options : CheckOptions) (text : String) : Except SourceFailure VerifiedProof :=
  match readProof text with
  | .error failure => .error failure
  | .ok lines =>
      match check options (lines.map LocatedLine.line) with
      | .error failure => .error (locate lines failure)
      | .ok proof => .ok proof

end NaturalDeduction
