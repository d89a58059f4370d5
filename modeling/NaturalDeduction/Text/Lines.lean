/-
  NaturalDeduction.Text.Lines
  ───────────────────────────
  **THE LINES OF A TEXT, with their byte offsets.**

  A line ends at a line feed.  One carriage return directly before that line
  feed belongs to the line's end; any other carriage return is part of the
  line.  A final line feed starts no further line.
-/
import NaturalDeduction.Text.Span
import NaturalDeduction.Text.Blank

namespace NaturalDeduction

/-- One line of a text: where it starts, and its characters without the line's
end. -/
structure TextLine where
  offset : Nat
  chars : List Char
deriving DecidableEq

namespace TextLine

/-- The line's characters as a string. -/
def text (l : TextLine) : String := String.ofList l.chars

/-- Does the line hold nothing but blanks? -/
def isBlank (l : TextLine) : Bool := l.chars.all NaturalDeduction.isBlank

end TextLine

/-- A line without the carriage return at its end, if it has one. -/
def dropCarriageReturn (cs : List Char) : List Char :=
  if cs.getLast? = some '\r' then cs.dropLast else cs

/-- Is the character inside a line, that is no line feed? -/
def isInLine (c : Char) : Bool := c ≠ '\n'

/-- The lines of a text that starts `offset` bytes into the whole. -/
def linesFrom (offset : Nat) (cs : List Char) : List TextLine :=
  if cs.isEmpty then []
  else
    match _h : cs.dropWhile isInLine with
    -- The last line has no line feed, and a carriage return at its end belongs to it.
    | [] => [⟨offset, cs⟩]
    | _ :: rest =>
        let line := cs.takeWhile isInLine
        ⟨offset, dropCarriageReturn line⟩ :: linesFrom (offset + byteLength line + 1) rest
termination_by cs.length
decreasing_by
  have shorter := (List.dropWhile_suffix (p := isInLine) (l := cs)).length_le
  rw [_h, List.length_cons] at shorter
  omega

/-- The lines of a text, in order. -/
def textLines (text : List Char) : List TextLine := linesFrom 0 text

end NaturalDeduction
