/-
  NaturalDeduction.Report.Row
  ───────────────────────────
  **ROWS OF A PICTURE**: characters in their places, each with its colour.

  A picture is built by writing texts into rows.  What is written later covers
  what stood there, and a gap before it is filled with spaces.  A row ends with
  the last character that was written, so an empty text fills no gap.
-/
import NaturalDeduction.Report.Style

namespace NaturalDeduction

/-- What a character of a picture belongs to. -/
inductive Ink where
  | plain
  | error
  | frame
deriving DecidableEq

/-- A text in the colour of its ink. -/
def Style.ink (style : Style) : Ink → String → String
  | .plain, text => text
  | .error, text => style.error text
  | .frame, text => style.frame text

/-- A row of a picture. -/
abbrev Row := List (Char × Ink)

namespace Row

/-- A row with a text written into it from a column on. -/
def write (row : Row) (column : Nat) (ink : Ink) (text : List Char) : Row :=
  if text.isEmpty then row
  else
    row.take column ++ List.replicate (column - row.length) (' ', Ink.plain)
      ++ text.map (·, ink) ++ row.drop (column + text.length)

/-- A row with a string written into it. -/
def writeString (row : Row) (column : Nat) (ink : Ink) (text : String) : Row :=
  row.write column ink text.toList

/-- A row with a string written behind its end. -/
def append (row : Row) (ink : Ink) (text : String) : Row := row.writeString row.length ink text

/-- A stretch of a row in one colour. -/
def renderRun (style : Style) : List (Char × Ink) → String
  | [] => ""
  | (c, ink) :: rest => style.ink ink (String.ofList (c :: rest.map Prod.fst))

/-- A row as it is printed, with one change of colour for each stretch of one
colour. -/
def render (style : Style) (row : Row) : String :=
  String.join ((row.splitBy fun a b => a.2 = b.2).map (renderRun style))

end Row

end NaturalDeduction
