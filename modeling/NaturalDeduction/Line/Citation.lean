/-
  NaturalDeduction.Line.Citation
  ──────────────────────────────
  What a proof line appeals to: earlier lines and closed subproofs.

  Citations are separated by commas.  A piece that cannot be read does not
  spoil the line: it only leaves its place in the list empty, and the rule
  that needs it fails.
-/
import NaturalDeduction.Formula.Basic
import NaturalDeduction.Token.Scan

namespace NaturalDeduction

/-- The note `[term/var]` on a cited line. -/
structure Substitution where
  term : Name
  var : Name
deriving DecidableEq

/-- A citation: a line, as in `2` or `2[a/x]`, or a whole subproof from its
first line to its last, as in `2-5`. -/
inductive Citation where
  | line (number : Nat) (substitution : Option Substitution)
  | subproof (first last : Nat)
deriving DecidableEq

namespace Citation

/-- The line number that a citation starts with. -/
def leading : Citation → Nat
  | line number _ => number
  | subproof first _ => first

/-- The note on a cited line. -/
def substitution? : Citation → Option Substitution
  | line _ substitution => substitution
  | subproof _ _ => none

/-- The citation that a whole list of tokens makes up. -/
def ofTokens? : List Token → Option Citation
  | [n] => n.number?.map fun number => line number none
  | [n, dash, m] =>
      if dash.kind = .dash then
        match n.number?, m.number? with
        | some first, some last => some (subproof first last)
        | _, _ => none
      else none
  | [n, opening, term, slash, var, closing] =>
      if opening.kind = .leftBracket ∧ term.isTerm ∧ slash.kind = .slash
          ∧ var.kind = .identifier ∧ closing.kind = .rightBracket then
        n.number?.map fun number => line number (some ⟨term.text, var.text⟩)
      else none
  | _ => none

/-- The citation that a piece of text makes up. -/
def parse? (piece : List Char) : Option Citation := ofTokens? (Token.scan 0 piece)

/-- The citations of a comma-separated list.  A blank text lists none; else
every piece has its place, readable or not. -/
def parseList (text : String) : List (Option Citation) :=
  if text.toList.all isBlank then [] else (text.toList.splitOn ',').map parse?

end Citation

end NaturalDeduction
