/-
  NaturalDeduction.Toml.Text
  ──────────────────────────
  The characters of a TOML file: blanks, comments, line ends, and the four
  kinds of strings.

  A reader takes characters from the front of a text and returns what it read
  with the characters that are left; `none` means that the text is not TOML.
-/

namespace NaturalDeduction.Toml

/-- A reader of things from the front of a text. -/
abbrev Reader (α : Type) := List Char → Option (α × List Char)

/-! ## §1. Blanks, line ends and comments. -/

/-- Is the character a space or a tab? -/
def isSpace (c : Char) : Bool := c = ' ' || c = '\t'

/-- A text without the spaces and tabs at its start. -/
def skipSpaces (cs : List Char) : List Char := cs.dropWhile isSpace

/-- May the character stand in a comment or, quotes apart, in a string?  Tabs
may, other control characters may not. -/
def isText (c : Char) : Bool := c = '\t' || (' ' ≤ c && c ≠ '\x7f')

/-- What follows a line end: a line feed, or a carriage return and a line
feed. -/
def lineEnd? : List Char → Option (List Char)
  | '\n' :: rest => some rest
  | '\r' :: '\n' :: rest => some rest
  | _ => none

/-- What follows a comment, if there is one here, up to its line end. -/
def skipComment : List Char → List Char
  | '#' :: rest => rest.dropWhile isText
  | cs => cs

/-- What follows the rest of a line that may hold spaces and a comment.  The
end of the text ends a line too. -/
def finishLine (cs : List Char) : Option (List Char) :=
  match skipComment (skipSpaces cs) with
  | [] => some []
  | rest => lineEnd? rest

/-- Skips spaces, comments and line ends, as between the items of an array.
`none` if a comment holds a character that it must not. -/
def skipLines (cs : List Char) : Option (List Char) :=
  match skipSpaces cs with
  | [] => some []
  | c :: rest =>
      if c = '#' || c = '\n' || c = '\r' then
        match finishLine (c :: rest) with
        | none => none
        | some rest' => if rest'.length < cs.length then skipLines rest' else none
      else some (c :: rest)
termination_by cs.length

/-! ## §2. Escapes. -/

/-- The value of a hexadecimal digit. -/
def hexDigit? (c : Char) : Option Nat :=
  if c.isDigit then some (c.toNat - '0'.toNat)
  else if 'a' ≤ c && c ≤ 'f' then some (c.toNat - 'a'.toNat + 10)
  else if 'A' ≤ c && c ≤ 'F' then some (c.toNat - 'A'.toNat + 10)
  else none

/-- The value of a run of hexadecimal digits. -/
def hexValue? (digits : List Char) : Option Nat :=
  digits.foldl (fun value c =>
    match value, hexDigit? c with
    | some n, some d => some (16 * n + d)
    | _, _ => none) (some 0)

/-- The character with the code point that `count` hexadecimal digits give. -/
def codePoint (count : Nat) : Reader Char := fun cs =>
  let digits := cs.take count
  if digits.length = count then
    match hexValue? digits with
    | none => none
    | some code => if code.isValidChar then some (Char.ofNat code, cs.drop count) else none
  else none

/-- The character that an escape stands for; the backslash has been read. -/
def escape : Reader Char
  | 'b' :: rest => some ('\x08', rest)
  | 't' :: rest => some ('\t', rest)
  | 'n' :: rest => some ('\n', rest)
  | 'f' :: rest => some ('\x0c', rest)
  | 'r' :: rest => some ('\r', rest)
  | '"' :: rest => some ('"', rest)
  | '\\' :: rest => some ('\\', rest)
  | 'u' :: rest => codePoint 4 rest
  | 'U' :: rest => codePoint 8 rest
  | _ => none

/-! ## §3. Strings on one line. -/

/-- A character in front of what is read next. -/
def prepend (c : Char) : Option (List Char × List Char) → Option (List Char × List Char)
  | some (cs, rest) => some (c :: cs, rest)
  | none => none

/-- The rest of a string in double quotes. -/
def basicString (cs : List Char) : Option (List Char × List Char) :=
  match cs with
  | [] => none
  | '"' :: rest => some ([], rest)
  | '\\' :: rest =>
      match escape rest with
      | none => none
      | some (c, rest') =>
          if rest'.length ≤ rest.length then prepend c (basicString rest') else none
  | c :: rest => if isText c then prepend c (basicString rest) else none
termination_by cs.length

/-- The rest of a string in single quotes. -/
def literalString : Reader (List Char)
  | [] => none
  | '\'' :: rest => some ([], rest)
  | c :: rest => if isText c then prepend c (literalString rest) else none

/-! ## §4. Strings over several lines. -/

/-- A text without the line end at its start. -/
def dropLineEnd (cs : List Char) : List Char := (lineEnd? cs).getD cs

/-- Up to two quotes before the closing three belong to the string. -/
def closeQuotes (quote : Char) : Reader (List Char)
  | a :: b :: rest =>
      if a = quote && b = quote then some ([quote, quote], rest)
      else if a = quote then some ([quote], b :: rest)
      else some ([], a :: b :: rest)
  | [a] => if a = quote then some ([quote], []) else some ([], [a])
  | [] => some ([], [])

/-- A text without the spaces, tabs and line ends at its start. -/
def skipBlankLines : List Char → List Char
  | ' ' :: rest => skipBlankLines rest
  | '\t' :: rest => skipBlankLines rest
  | '\n' :: rest => skipBlankLines rest
  | '\r' :: '\n' :: rest => skipBlankLines rest
  | cs => cs

/-- What follows a backslash at the end of a line: it joins the lines and
swallows the blanks between them. -/
def joinedLine? (cs : List Char) : Option (List Char) :=
  (lineEnd? (skipSpaces cs)).map skipBlankLines

/-- The rest of a string in three double quotes. -/
def longBasicString (cs : List Char) : Option (List Char × List Char) :=
  match cs with
  | [] => none
  | '"' :: '"' :: '"' :: rest => closeQuotes '"' rest
  | '"' :: rest => prepend '"' (longBasicString rest)
  | '\n' :: rest => prepend '\n' (longBasicString rest)
  | '\r' :: '\n' :: rest => prepend '\n' (longBasicString rest)
  | '\\' :: rest =>
      match joinedLine? rest with
      | some rest' => if rest'.length ≤ rest.length then longBasicString rest' else none
      | none =>
          match escape rest with
          | none => none
          | some (c, rest') =>
              if rest'.length ≤ rest.length then prepend c (longBasicString rest') else none
  | c :: rest => if isText c then prepend c (longBasicString rest) else none
termination_by cs.length

/-- The rest of a string in three single quotes. -/
def longLiteralString : Reader (List Char)
  | [] => none
  | '\'' :: '\'' :: '\'' :: rest => closeQuotes '\'' rest
  | '\'' :: rest => prepend '\'' (longLiteralString rest)
  | '\n' :: rest => prepend '\n' (longLiteralString rest)
  | '\r' :: '\n' :: rest => prepend '\n' (longLiteralString rest)
  | c :: rest => if isText c then prepend c (longLiteralString rest) else none

end NaturalDeduction.Toml
