/-
  NaturalDeduction.Report.Diagnostic
  ──────────────────────────────────
  **ERROR MESSAGES as they are shown**: a title, the line at fault with a row of
  carets under the bytes in question, and a note.

      error: line 2 (&-i): expected `(A & A)`, but found `B`
       --> p.nd:2:4
        |
      2 | 2. B &-i : 1, 1
        |    ^ `&-i` does not apply here
        |
-/
import NaturalDeduction.Proof.Source
import NaturalDeduction.Report.Row
import NaturalDeduction.Report.Window

namespace NaturalDeduction

/-! ## §1. Places in a text. -/

/-- A place in a text as a reader counts it, with the line it is in.  Lines and
columns count from one, columns in characters. -/
structure Place where
  row : Nat
  column : Nat
  line : List Char
deriving DecidableEq

/-- The place that lies `offset` bytes into a text. -/
def Place.ofOffset (text : List Char) (offset : Nat) : Place :=
  let before := takeBytes offset text
  let lineStart := (before.reverse.takeWhile isInLine).reverse
  { row := before.count '\n' + 1
    column := lineStart.length + 1
    line := lineStart ++ (dropBytes offset text).takeWhile isInLine }

/-! ## §2. Diagnostics. -/

/-- A quotation from a text, with a label under the bytes in question. -/
structure Quotation where
  path : String
  source : String
  label : String
  span : Span
deriving DecidableEq

/-- An error as it is shown. -/
structure Diagnostic where
  title : String
  quotation : Option Quotation := none
  note : Option String := none
deriving DecidableEq

namespace Quotation

/-- The width of a page. -/
def pageWidth : Nat := 140

/-- The width of the margin that holds the line number. -/
def margin (q : Quotation) : Nat :=
  (Nat.repr (Place.ofOffset q.source.toList q.span.start).row).length

/-- The columns that are free for a line behind its number.  There is room for
the number of the next line too. -/
def lineWidth (row : Nat) : Nat := pageWidth - (3 + (Nat.repr (row + 1)).length)

/-- Does the character take a column?  Control characters, such as a carriage
return, take none. -/
def takesColumn (c : Char) : Bool := !(c.toNat < 0x20 || (0x7f ≤ c.toNat && c.toNat < 0xa0))

/-- The extent of a quoted line.  There is always something marked. -/
def extent (q : Quotation) (place : Place) : Extent :=
  let first := (place.line.take (place.column - 1)).countP takesColumn
  let last := first + max 1 ((q.span.slice q.source.toList).countP takesColumn)
  { indent := (place.line.takeWhile isBlank).length
    first
    last
    label := last + 1 + byteLength q.label.toList
    length := byteLength place.line }

/-- The row that names the place: the path, the line and the column.  A path
stands one space behind the arrow. -/
def placeRow (q : Quotation) (place : Place) : Row :=
  let row := Row.writeString [] q.margin .frame "-->"
  let row := row.writeString (q.margin + 4) .plain q.path
  row.append .plain (":" ++ Nat.repr place.row ++ ":" ++ Nat.repr place.column)

/-- The dots in place of what is not shown. -/
def ellipsis : String := "..."

/-- The row with the line number and the shown part of the line. -/
def lineRow (q : Quotation) (place : Place) : Row :=
  let width := lineWidth place.row
  let e := (q.extent place).widen
  let window := Window.choose width e
  let shown := window.inside width e.length place.line
  let code := q.margin + 3
  let row := (Row.writeString [] 0 .frame (Nat.repr place.row ++ " |")).write code .plain shown
  let row := if window.cutsLeft then row.writeString code .frame ellipsis else row
  if window.cutsRight width e then
    row.writeString (code + shown.length - ellipsis.length) .frame ellipsis
  else row

/-- The row with the carets and the label.  A marked part that starts before the
window reaches into the margin. -/
def caretRow (q : Quotation) (place : Place) : Row :=
  let e := q.extent place
  let window := Window.choose (lineWidth place.row) e.widen
  let hidden := (window.before e.length place.line).length
  let code := q.margin + 3
  let start := code + e.first - hidden
  let stop := code + e.last - hidden
  let row := Row.writeString [] (q.margin + 1) .frame "|"
  let row := row.writeString (code + (e.last + 1 - hidden)) .error q.label
  row.write start .error (List.replicate (max 1 (stop - start)) '^')

/-- The lines of a quotation. -/
def render (style : Style) (q : Quotation) : List String :=
  let place := Place.ofOffset q.source.toList q.span.start
  let rule := spaces (q.margin + 1) ++ style.frame "|"
  [ (q.placeRow place).render style,
    rule,
    (q.lineRow place).render style,
    (q.caretRow place).render style,
    rule ]

end Quotation

namespace Diagnostic

/-- A diagnostic as it is shown, without a line feed at its end. -/
def render (style : Style) (d : Diagnostic) : String :=
  let title := style.error "error" ++ ": " ++ style.bold d.title
  let quotation := match d.quotation with
    | none => []
    | some q => q.render style
  let margin := match d.quotation with
    | none => 0
    | some q => q.margin
  let note := match d.note with
    | none => []
    | some text =>
        [spaces (margin + 1) ++ style.frame "= " ++ style.note "note" ++ ": " ++ text]
  String.intercalate "\n" (title :: (quotation ++ note))

end Diagnostic

/-! ## §3. Diagnostics of rejected proofs. -/

/-- What stands under a line that cannot be cut into its parts. -/
def LineFault.Cause.label : LineFault.Cause → String
  | malformedNumber => "expected `<n>.`"
  | missingColon => "expected `:`"
  | missingRule => "expected a rule name"
  | missingFormula => "expected a formula before the rule"

/-- What stands under a line that was not accepted. -/
def CheckFailure.label (failure : CheckFailure) : String :=
  match failure.cause with
  | .unreadable e => "expected " ++ e.expected.describe
  | .unknownRule => "unknown rule"
  | .violation _ => "`" ++ failure.ruleText ++ "` does not apply here"
  | .lineOrder _ | .duplicate => "out of order"
  | .misplaced _ => "bad subproof structure"

/-- The diagnostic of a rejected text. -/
def SourceFailure.diagnose (path source : String) (failure : SourceFailure) : Diagnostic :=
  match failure with
  | .malformed _ fault => {
      title := "malformed proof line: " ++ fault.message
      quotation := some ⟨path, source, fault.cause.label, failure.span⟩ }
  | .rejected _ rejection => {
      title := rejection.message
      quotation := some ⟨path, source, rejection.label, failure.span⟩
      note := match rejection.cause with
        | .unknownRule =>
            some ("`" ++ rejection.ruleText ++ "` is not a natural-deduction rule")
        | _ => none }

end NaturalDeduction
