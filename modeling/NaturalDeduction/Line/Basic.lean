/-
  NaturalDeduction.Line.Basic
  ───────────────────────────
  **PROOF LINES**, cut into their parts:

      <number>. <bars> <flag>? <formula> <rule> : <citations>

  One bar stands for each subproof around the line.  A flag is a variable that
  the line brings into play for a subproof of its own.  The parts are found
  among the tokens of the line; the formula is kept as text and read later.
-/
import NaturalDeduction.Formula.Printer
import NaturalDeduction.Line.Citation
import NaturalDeduction.Token.Cursor

namespace NaturalDeduction

/-! ## §1. Lines and their faults. -/

/-- Where the parts of a line are. -/
structure LineSpans where
  line : Span
  formula : Span
  rule : Span
  citations : Span
deriving DecidableEq

/-- A proof line cut into its parts. -/
structure ProofLine where
  number : Nat
  /-- The number of bars before the formula. -/
  depth : Nat
  flag : Option Name
  formulaText : String
  ruleText : String
  citationText : String
  spans : LineSpans
deriving DecidableEq

/-- What the line appeals to. -/
def ProofLine.citations (line : ProofLine) : List (Option Citation) :=
  Citation.parseList line.citationText

/-- Which part of a line is missing. -/
inductive LineFault.Cause where
  | malformedNumber
  | missingColon
  | missingRule
  | missingFormula
deriving DecidableEq

/-- A line that cannot be cut into its parts, and the place that shows it. -/
structure LineFault where
  cause : LineFault.Cause
  span : Span
deriving DecidableEq

/-- The message for a missing part. -/
def LineFault.Cause.message : LineFault.Cause → String
  | malformedNumber => "a proof line must start with a line number followed by `.`"
  | missingColon => "missing `:` before the dependency list"
  | missingRule => "missing rule name before `:`"
  | missingFormula => "missing formula"

/-- The message for a line that cannot be cut into its parts. -/
def LineFault.message (fault : LineFault) : String := fault.cause.message

namespace ProofLine

/-! ## §2. The parts of a line. -/

/-- Reads the number and the dot at the start of a line. -/
def numbered (start : Cursor) : Except LineFault (Nat × Cursor) :=
  match start.eat? .number with
  | none => .error ⟨.malformedNumber, start.nextSpan⟩
  | some (first, afterNumber) =>
      match first.number? with
      -- A number that is too large has been passed, so what follows it is shown.
      | none => .error ⟨.malformedNumber, afterNumber.nextSpan⟩
      | some number =>
          match afterNumber.eat? .dot with
          | none => .error ⟨.malformedNumber, first.span.through afterNumber.nextSpan⟩
          | some (_, afterDot) => .ok (number, afterDot)

/-- Is the token a bar? -/
def isBar (t : Token) : Bool := t.kind = .bar

/-- Does the token come before the colon of its line? -/
def isBeforeColon (t : Token) : Bool := t.kind ≠ .colon

/-- May the token name a rule? -/
def isRuleText (t : Token) : Bool := t.kind = .ruleName || t.kind = .dashedWord

/-- Is the first token a flag and not the start of the formula?  It is when a
formula can start right after it: `z P(z)` flags `z`, while `P(x)`, `P & Q` and
`a = b` flag nothing. -/
def isFlag (first second : Token) : Bool :=
  first.kind = .identifier
    && first.text ≠ Quantifier.all.word
    && first.text ≠ Quantifier.ex.word
    && first.text ≠ Connective.disj.sign
    && match second.kind with
      | .identifier => second.text ≠ Connective.disj.sign
      | .tilde | .falsity | .number => true
      -- `z (P)` flags `z`, and `P(x)` is an atom: a blank makes the difference.
      | .leftParen => first.span.stop < second.span.start
      | _ => false

/-- The flag before a formula, and the tokens of the formula. -/
def splitFlag : List Token → Option Name × List Token
  | first :: second :: rest =>
      if isFlag first second then (some first.text, second :: rest)
      else (none, first :: second :: rest)
  | tokens => (none, tokens)

/-! ## §3. The whole line. -/

/-- Cuts a line into its parts. -/
def parse (raw : String) : Except LineFault ProofLine :=
  let chars := raw.toList
  let start := Cursor.ofText raw
  match numbered start with
  | .error fault => .error fault
  | .ok (number, afterDot) =>
      let body := afterDot.ahead.dropWhile isBar
      match body.dropWhile isBeforeColon with
      | [] => .error ⟨.missingColon, .emptyAt (byteLength (trimEnd chars))⟩
      | colon :: _ =>
          let beforeColon := body.takeWhile isBeforeColon
          match beforeColon.getLast? with
          | none => .error ⟨.missingRule, colon.span⟩
          | some rule =>
              if isRuleText rule then
                let (flag, tokens) := splitFlag beforeColon.dropLast
                match tokens.head?, tokens.getLast? with
                | some first, some last =>
                    -- The formula reaches from its first token to its last, and the
                    -- citations are all that stands behind the colon, blanks apart.
                    let formulaSpan := first.span.through last.span
                    let afterColon := dropBytes colon.span.stop chars
                    let citationText := trim afterColon
                    let citationStart :=
                      colon.span.stop + (byteLength afterColon - byteLength (trimStart afterColon))
                    .ok {
                      number
                      depth := (afterDot.ahead.takeWhile isBar).length
                      flag
                      formulaText := String.ofList (formulaSpan.slice chars)
                      ruleText := rule.text
                      citationText := String.ofList citationText
                      spans := {
                        line := ⟨0, start.stop⟩
                        formula := formulaSpan
                        rule := rule.span
                        citations := ⟨citationStart, citationStart + byteLength citationText⟩ } }
                | _, _ => .error ⟨.missingFormula, rule.span⟩
              else .error ⟨.missingRule, rule.span⟩

end ProofLine

end NaturalDeduction
