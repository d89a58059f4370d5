/-
  NaturalDeduction.Token.Scan
  ───────────────────────────
  **READING A TEXT AS TOKENS.**

  At each place the recognisers are tried in a fixed order: the turnstile, a
  rule name, a dashed word, a run of digits, an identifier, a single sign.  A
  character that starts none of them is dropped, as blanks are.  A rule name
  counts only if no identifier character follows it, so `A-ex` is an identifier
  and a dashed word, and not the rule `A-e` with an `x` behind it.
-/
import NaturalDeduction.Rule.Basic
import NaturalDeduction.Text.Alphabetic
import NaturalDeduction.Text.Blank
import NaturalDeduction.Text.Numeric
import NaturalDeduction.Token.Basic

namespace NaturalDeduction.Token

/-! ## §1. Character classes. -/

/-- May the character start an identifier? -/
def isNameStart (c : Char) : Bool := isAlphabetic c

/-- May the character stand in an identifier after its start? -/
def isNameRest (c : Char) : Bool := isAlphabetic c || isNumeric c || c = '\''

/-- The kind of a sign that is a token by itself. -/
def sign? : Char → Option Kind
  | '(' => some .leftParen
  | ')' => some .rightParen
  | ',' => some .comma
  | '.' => some .dot
  | ':' => some .colon
  | '|' => some .bar
  | '[' => some .leftBracket
  | ']' => some .rightBracket
  | '/' => some .slash
  | '-' => some .dash
  | '=' => some .equals
  | '&' => some .ampersand
  | '>' => some .greater
  | '~' => some .tilde
  | _ => none

/-! ## §2. One lexeme. -/

/-- The symbolic rule names as characters. -/
def ruleNames : List (List Char) := Rule.symbolic.map fun rule => rule.name.toList

/-- The rule name at the start of a text, if no identifier character follows
it. -/
def ruleName? (cs : List Char) : Option (List Char) :=
  ruleNames.find? fun name =>
    name.isPrefixOf cs && !(cs.drop name.length).head?.any isNameRest

/-- The lexeme at the start of a text: its kind and its characters.  A text
that starts with a blank or an unknown character has none. -/
def lexeme? : List Char → Option (Kind × List Char)
  | [] => none
  | c :: rest =>
      if isBlank c then none
      else if c = '|' && rest.head? = some '-' then some (.turnstile, ['|', '-'])
      else
        match ruleName? (c :: rest) with
        | some name => some (.ruleName, name)
        | none =>
            if c = '-' && rest.head?.any isNameStart then
              some (.dashedWord, c :: rest.takeWhile isNameRest)
            else if c.isDigit then
              let digits := c :: rest.takeWhile Char.isDigit
              some (if digits = ['0'] then .falsity else .number, digits)
            else if isNameStart c then
              some (.identifier, c :: rest.takeWhile isNameRest)
            else (sign? c).map fun kind => (kind, [c])

/-! ## §3. All lexemes. -/

/-- The tokens of a text that starts `offset` bytes into the whole. -/
def scan (offset : Nat) : List Char → List Token
  | [] => []
  | c :: rest =>
      match lexeme? (c :: rest) with
      -- A blank, or a character without meaning.
      | none => scan (offset + c.utf8Size) rest
      | some (kind, lexeme) =>
          let stop := offset + byteLength lexeme
          ⟨kind, String.ofList lexeme, ⟨offset, stop⟩⟩ ::
            scan stop (rest.drop (lexeme.length - 1))
termination_by cs => cs.length

/-- The tokens of a text, in order. -/
def tokenize (text : String) : List Token := scan 0 text.toList

end NaturalDeduction.Token
