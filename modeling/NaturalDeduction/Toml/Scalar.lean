/-
  NaturalDeduction.Toml.Scalar
  ────────────────────────────
  Unquoted values of a TOML file: booleans, numbers, dates and times.

  A value without quotes is a run of letters, digits and the signs `_ + - . :`,
  and is judged as a whole.
-/
import NaturalDeduction.Toml.Text

namespace NaturalDeduction.Toml

/-! ## §1. Digits. -/

/-- Digits with single underscores between some of them. -/
def isDigitRun (isDigit : Char → Bool) : List Char → Bool
  | [] => false
  | [c] => isDigit c
  | c :: '_' :: rest => isDigit c && isDigitRun isDigit rest
  | c :: rest => isDigit c && isDigitRun isDigit rest

/-- The value of a run of digits in a base. -/
def digitRunValue (base : Nat) (digits : List Char) : Nat :=
  (digits.filterMap hexDigit?).foldl (fun n d => base * n + d) 0

/-- Is the sign of a number a minus, and what follows the sign? -/
def splitSign : List Char → Bool × List Char
  | '+' :: rest => (false, rest)
  | '-' :: rest => (true, rest)
  | cs => (false, cs)

/-! ## §2. Integers. -/

/-- Decimal digits without a leading zero. -/
def isWhole (digits : List Char) : Bool :=
  isDigitRun Char.isDigit digits && (digits.head? ≠ some '0' || digits.length = 1)

/-- Integers have 64 bits and a sign. -/
def integerLimit : Nat := 0x8000000000000000

/-- Is the text an integer after `0x`, `0o` or `0b`? -/
def isPrefixedInteger (base : Nat) (digits : List Char) : Bool :=
  isDigitRun (fun c => (hexDigit? c).any fun d => d < base) digits
    && digitRunValue base digits < integerLimit

/-- Is the text an integer? -/
def isInteger : List Char → Bool
  | '0' :: 'x' :: digits => isPrefixedInteger 16 digits
  | '0' :: 'o' :: digits => isPrefixedInteger 8 digits
  | '0' :: 'b' :: digits => isPrefixedInteger 2 digits
  | cs =>
      let (negative, digits) := splitSign cs
      isWhole digits
        && digitRunValue 10 digits < (if negative then integerLimit + 1 else integerLimit)

/-! ## §3. Floating-point numbers. -/

/-- The least number that rounds to infinity with 53 bits of precision. -/
def infinityBound : Nat := Nat.pow 2 1024 - Nat.pow 2 970

/-- Does `digits · 10 ^ (exponent - places)` round to infinity?  The number of
digits settles all but the close cases. -/
def overflows (digits : Nat) (places : Nat) (negative : Bool) (exponent : Nat) : Bool :=
  if digits = 0 then false
  else
    let size := (Nat.repr digits).length
    if negative then
      if places + exponent + 400 < size then true
      else infinityBound * Nat.pow 10 (min (places + exponent) size) ≤ digits
    else if places + 400 < size + exponent then true
    else infinityBound * Nat.pow 10 places ≤ digits * Nat.pow 10 (min exponent (places + 400))

/-- The sign and the digits of an exponent, if the text is one. -/
def exponent? (cs : List Char) : Option (Bool × List Char) :=
  let (negative, digits) := splitSign cs
  if isDigitRun Char.isDigit digits then some (negative, digits) else none

/-- Does the character start an exponent? -/
def isExponentMark (c : Char) : Bool := c = 'e' || c = 'E'

/-- Is the text `inf` or `nan`? -/
def isSpecialFloat (cs : List Char) : Bool :=
  cs = ['i', 'n', 'f'] || cs = ['n', 'a', 'n']

/-- Is the text a floating-point number?  It has a fraction, an exponent or
both.  A positive number must not be too large. -/
def isFloat (cs : List Char) : Bool :=
  let (negative, body) := splitSign cs
  if isSpecialFloat body then true
  else
    let mantissa := body.takeWhile fun c => !isExponentMark c
    let whole := mantissa.takeWhile (· ≠ '.')
    let fraction := (mantissa.dropWhile (· ≠ '.')).drop 1
    let hasPoint := mantissa.contains '.'
    let scale := match body.dropWhile fun c => !isExponentMark c with
      | [] => some (false, [])
      | _ :: rest => exponent? rest
    match scale with
    | none => false
    | some (negativeScale, scaleDigits) =>
        isWhole whole
          && (hasPoint || !scaleDigits.isEmpty)
          && (!hasPoint || isDigitRun Char.isDigit fraction)
          && (negative
            || !overflows (digitRunValue 10 (whole ++ fraction))
                (fraction.filter Char.isDigit).length negativeScale
                (digitRunValue 10 scaleDigits))

/-! ## §4. Dates and times. -/

/-- Two digits with a value in a range, and what follows them. -/
def twoDigits (low high : Nat) : Reader Nat
  | a :: b :: rest =>
      let value := digitRunValue 10 [a, b]
      if a.isDigit && b.isDigit && low ≤ value && value ≤ high then some (value, rest) else none
  | _ => none

/-- One certain character, and what follows it. -/
def sign? (c : Char) : List Char → Option (List Char)
  | d :: rest => if d = c then some rest else none
  | [] => none

/-- The number of days in a month. -/
def daysInMonth (year month : Nat) : Nat :=
  if month = 2 then
    if year % 4 = 0 && (year % 100 ≠ 0 || year % 400 = 0) then 29 else 28
  else if month = 4 || month = 6 || month = 9 || month = 11 then 30
  else 31

/-- What follows a date such as `1979-05-27`. -/
def date? (cs : List Char) : Option (List Char) := do
  let (century, cs) ← twoDigits 0 99 cs
  let (year, cs) ← twoDigits 0 99 cs
  let cs ← sign? '-' cs
  let (month, cs) ← twoDigits 1 12 cs
  let cs ← sign? '-' cs
  let (_, cs) ← twoDigits 1 (daysInMonth (100 * century + year) month) cs
  return cs

/-- What follows the fraction of a second, if there is one. -/
def fraction? : List Char → Option (List Char)
  | '.' :: c :: rest => if c.isDigit then some (rest.dropWhile Char.isDigit) else none
  | ['.'] => none
  | cs => some cs

/-- What follows a time such as `07:32:00.5`. -/
def time? (cs : List Char) : Option (List Char) := do
  let (_, cs) ← twoDigits 0 23 cs
  let cs ← sign? ':' cs
  let (_, cs) ← twoDigits 0 59 cs
  let cs ← sign? ':' cs
  let (_, cs) ← twoDigits 0 60 cs
  fraction? cs

/-- Is the text an offset from universal time, or empty? -/
def isOffset : List Char → Bool
  | [] | ['Z'] | ['z'] => true
  | c :: rest =>
      (c = '+' || c = '-') &&
        ((do
          let (_, cs) ← twoDigits 0 23 rest
          let cs ← sign? ':' cs
          let (_, cs) ← twoDigits 0 59 cs
          return cs.isEmpty : Option Bool).getD false)

/-- Is the text a time with an optional offset? -/
def isOffsetTime (cs : List Char) : Bool := (time? cs).any isOffset

/-- Is the text a date? -/
def isDate (cs : List Char) : Bool := (date? cs).any List.isEmpty

/-- Is the text a date, a time, or a date and a time with a `T` between them? -/
def isMoment (cs : List Char) : Bool :=
  (match date? cs with
    | some [] => true
    | some (c :: rest) => (c = 'T' || c = 't') && isOffsetTime rest
    | none => false)
  || (time? cs).any List.isEmpty

/-! ## §5. Unquoted values. -/

/-- An unquoted value, as far as its content matters. -/
inductive Scalar where
  | boolean (value : Bool)
  | number
  | moment
deriving DecidableEq

/-- May the character stand in an unquoted value? -/
def isScalarChar (c : Char) : Bool :=
  c.isAlphanum || c = '_' || c = '+' || c = '-' || c = '.' || c = ':'

/-- The value that a run of characters is. -/
def Scalar.ofRun? (run : List Char) : Option Scalar :=
  if run = ['t', 'r', 'u', 'e'] then some (boolean true)
  else if run = ['f', 'a', 'l', 's', 'e'] then some (boolean false)
  else if isMoment run then some moment
  else if isFloat run || isInteger run then some number
  else none

/-- Reads an unquoted value.  A space may stand between a date and a time. -/
def Scalar.read : Reader Scalar := fun cs =>
  let run := cs.takeWhile isScalarChar
  let rest := cs.dropWhile isScalarChar
  match rest with
  | ' ' :: c :: rest' =>
      if isDate run && c.isDigit then
        if isOffsetTime ((c :: rest').takeWhile isScalarChar) then
          some (moment, (c :: rest').dropWhile isScalarChar)
        else none
      else (Scalar.ofRun? run).map (·, rest)
  | _ => (Scalar.ofRun? run).map (·, rest)

end NaturalDeduction.Toml
