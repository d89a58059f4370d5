/-
  NaturalDeduction.Report.Window
  ──────────────────────────────
  **WHICH PART OF A LONG LINE IS SHOWN.**

  A wide indentation is shortened in any case.  If the line still does not fit,
  the indentation goes, or else the window moves to the marked part and its
  label.  Columns count characters; the length of a line counts bytes, so a
  line with letters of several bytes counts as longer than it looks.
-/

namespace NaturalDeduction

/-- What a window has to show, in columns of the line. -/
structure Extent where
  /-- The number of blanks at the start of the line. -/
  indent : Nat
  /-- Where the marked part starts. -/
  first : Nat
  /-- Where the marked part ends. -/
  last : Nat
  /-- Where the label behind the marked part ends. -/
  label : Nat
  /-- The length of the line, in bytes. -/
  length : Nat
deriving DecidableEq

/-- The part of a line that is shown, from one column to another. -/
structure Window where
  left : Nat
  right : Nat
deriving DecidableEq

/-- The room on either side of what is shown, enough for an ellipsis. -/
def ellipsisRoom : Nat := 6

/-- The extent with room for an ellipsis on either side. -/
def Extent.widen (e : Extent) : Extent :=
  { e with
    indent := e.indent - ellipsisRoom
    first := e.first - ellipsisRoom
    last := e.last + ellipsisRoom
    label := e.label + ellipsisRoom }

namespace Window

/-- An indentation up to this width is kept. -/
def longIndent : Nat := 20

/-- What is left of a wider indentation. -/
def keptIndent : Nat := 16

/-- A window that starts somewhere and is as wide as possible. -/
def startingAt (left width : Nat) : Window := ⟨left, left + width⟩

/-- The window for a widened extent, where `width` columns are free. -/
def choose (width : Nat) (e : Extent) : Window :=
  let left := if longIndent < e.indent then e.indent - keptIndent else 0
  if e.length - left ≤ width then ⟨left, max e.length left⟩
  -- Without the indentation, all from the first character to the label fits.
  else if e.label - e.indent ≤ width then startingAt e.indent width
  -- The marked part fits with its label, and stands in the middle with it.
  else if e.label - e.first ≤ width then
    startingAt (e.first - (width - (e.label - e.first)) / 2) width
  -- The marked part fits without its label.
  else if e.last - e.first ≤ width then
    startingAt (e.first - (width - (e.last - e.first)) / 5 * 2) width
  else ⟨e.first, e.last⟩

/-- The characters of a line of `length` bytes before the window. -/
def before (w : Window) (length : Nat) (line : List Char) : List Char :=
  line.take (min w.left length)

/-- The characters of a line of `length` bytes inside the window. -/
def inside (w : Window) (width length : Nat) (line : List Char) : List Char :=
  let left := min w.left length
  let right := if length - w.left ≤ width then length else min length w.right
  (line.drop left).take (right - left)

/-- Is something missing on the left? -/
def cutsLeft (w : Window) : Bool := 0 < w.left

/-- Does something count as missing on the right of a line with this widened
extent?  The room for an ellipsis behind the marked part does not count. -/
def cutsRight (w : Window) (width : Nat) (e : Extent) : Bool :=
  let right :=
    if w.right = e.last || w.right = e.label then w.right - ellipsisRoom else w.right
  right < e.length && w.left + width < e.length

end Window

end NaturalDeduction
