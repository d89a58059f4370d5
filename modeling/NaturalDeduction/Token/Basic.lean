/-
  NaturalDeduction.Token.Basic
  ────────────────────────────
  The tokens that proof lines, formulas and citations are made of.
-/
import NaturalDeduction.Text.Span

namespace NaturalDeduction

namespace Token

/-- What a token is. -/
inductive Kind where
  /-- The sign `|-` of a sequent; it has no place in a proof line. -/
  | turnstile
  /-- A `0` that stands alone. -/
  | falsity
  | number
  | ruleName
  /-- A dash with a word directly after it, such as `-premiss`. -/
  | dashedWord
  | identifier
  | leftParen
  | rightParen
  | comma
  | dot
  | colon
  | bar
  | leftBracket
  | rightBracket
  | slash
  | dash
  | equals
  | ampersand
  | greater
  | tilde
deriving DecidableEq

/-- How a message speaks of a kind of token. -/
def Kind.describe : Kind → String
  | turnstile => "`|-`"
  | falsity => "`0`"
  | number => "a number"
  | ruleName => "a rule name"
  | dashedWord => "a dashed rule name"
  | identifier => "an identifier"
  | leftParen => "`(`"
  | rightParen => "`)`"
  | comma => "`,`"
  | dot => "`.`"
  | colon => "`:`"
  | bar => "`|`"
  | leftBracket => "`[`"
  | rightBracket => "`]`"
  | slash => "`/`"
  | dash => "`-`"
  | equals => "`=`"
  | ampersand => "`&`"
  | greater => "`>`"
  | tilde => "`~`"

end Token

/-- A token: its kind, the characters it stands for, and where they are. -/
structure Token where
  kind : Token.Kind
  text : String
  span : Span
deriving DecidableEq

namespace Token

/-- Is the token an identifier with this very text? -/
def isWord (t : Token) (word : String) : Bool := t.kind = .identifier && t.text = word

/-- May the token stand for an object: an identifier, a number or a `0`? -/
def isTerm (t : Token) : Bool :=
  t.kind = .identifier || t.kind = .number || t.kind = .falsity

/-- The value of a run of decimal digits. -/
def digitsValue (digits : List Char) : Nat :=
  digits.foldl (fun n c => 10 * n + (c.toNat - '0'.toNat)) 0

/-- Line numbers are written with 64 bits. -/
def numberLimit : Nat := 0x10000000000000000

/-- The value of a number token, unless it is too large for a line number. -/
def number? (t : Token) : Option Nat :=
  if t.kind = .number then
    let value := digitsValue t.text.toList
    if value < numberLimit then some value else none
  else none

end Token

end NaturalDeduction
