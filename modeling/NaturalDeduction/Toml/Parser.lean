/-
  NaturalDeduction.Toml.Parser
  ────────────────────────────
  Reading a TOML file.

  Keys have fewer than eighty parts, and arrays and braces are nested fewer than
  eighty deep; deeper files are refused.
-/
import NaturalDeduction.Toml.Document

namespace NaturalDeduction.Toml

/-! ## §1. Keys. -/

/-- Parts of a key and levels of nesting stay below this number. -/
def nestingLimit : Nat := 80

/-- May the character stand in a key without quotes? -/
def isKeyChar (c : Char) : Bool := c.isAlphanum || c = '_' || c = '-'

/-- One part of a key, bare or in quotes. -/
def simpleKey : Reader String
  | '"' :: rest => (basicString rest).map fun (text, rest') => (String.ofList text, rest')
  | '\'' :: rest => (literalString rest).map fun (text, rest') => (String.ofList text, rest')
  | cs =>
      let word := cs.takeWhile isKeyChar
      if word.isEmpty then none else some (String.ofList word, cs.dropWhile isKeyChar)

/-- The parts of a key, with dots between them and spaces around them. -/
def keyParts (cs : List Char) : Option (List String × List Char) :=
  match simpleKey (skipSpaces cs) with
  | none => none
  | some (part, rest) =>
      match skipSpaces rest with
      | '.' :: rest' =>
          if rest'.length < cs.length then
            match keyParts rest' with
            | none => none
            | some (parts, rest'') => some (part :: parts, rest'')
          else none
      | rest' => some ([part], rest')
termination_by cs.length

/-- A key: the parts before the last dot, and the last part. -/
def key : Reader (List String × String) := fun cs =>
  match keyParts cs with
  | none => none
  | some (parts, rest) =>
      match parts.getLast? with
      | none => none
      | some last =>
          if parts.length < nestingLimit then some ((parts.dropLast, last), rest) else none

/-! ## §2. Values. -/

/-- The rest of an array, given how its items are read. -/
def arrayItems (item : Reader Item) (cs : List Char) : Option (List Char) :=
  match skipLines cs with
  | none => none
  | some (']' :: rest) => some rest
  | some start =>
      match item start with
      | none => none
      | some (_, rest) =>
          match skipLines rest with
          | some (']' :: rest') => some rest'
          | some (',' :: rest') =>
              if rest'.length < cs.length then arrayItems item rest' else none
          | _ => none
termination_by cs.length

/-- A key, an equals sign and an item. -/
def keyItem (item : Reader Item) : Reader ((List String × String) × Item) := fun cs =>
  match key cs with
  | none => none
  | some (name, rest) =>
      match rest with
      | '=' :: rest' =>
          match item (skipSpaces rest') with
          | none => none
          | some (value, rest'') => some ((name, value), rest'')
      | _ => none

/-- The rest of a table in braces that has at least one more entry. -/
def inlineEntries (item : Reader Item) (entries : Entries) (cs : List Char) :
    Option (Entries × List Char) :=
  match keyItem item cs with
  | none => none
  | some (((path, last), value), rest) =>
      match addDotted last value path entries with
      | none => none
      | some entries' =>
          match skipSpaces rest with
          | '\x7d' :: rest' => some (entries', rest')
          | ',' :: rest' =>
              if rest'.length < cs.length then inlineEntries item entries' rest' else none
          | _ => none
termination_by cs.length

/-- The rest of a table in braces, given how its items are read. -/
def inlineTable (item : Reader Item) : Reader Entries := fun cs =>
  match skipSpaces cs with
  | '\x7d' :: rest => some ([], rest)
  | _ => inlineEntries item [] cs

/-- A value; `depth` bounds how deep arrays and braces may still be nested. -/
def value (depth : Nat) : Reader Item := fun cs =>
  match cs with
  | '"' :: '"' :: '"' :: rest =>
      (longBasicString (dropLineEnd rest)).map fun (_, rest') => (.text, rest')
  | '\'' :: '\'' :: '\'' :: rest =>
      (longLiteralString (dropLineEnd rest)).map fun (_, rest') => (.text, rest')
  | '"' :: rest => (basicString rest).map fun (_, rest') => (.text, rest')
  | '\'' :: rest => (literalString rest).map fun (_, rest') => (.text, rest')
  | '[' :: rest =>
      match depth with
      | 0 => none
      | depth + 1 => (arrayItems (value depth) rest).map fun rest' => (.array, rest')
  | '\x7b' :: rest =>
      match depth with
      | 0 => none
      | depth + 1 =>
          (inlineTable (value depth) rest).map fun (entries, rest') =>
            (.table .inline entries, rest')
  | _ => (Scalar.read cs).map fun (scalar, rest) => (.scalar scalar, rest)

/-! ## §3. Lines. -/

/-- One header or one key with its item, up to the end of its line. -/
def statement (d : Document) (cs : List Char) : Option (Document × List Char) :=
  match cs with
  | '[' :: '[' :: rest =>
      match key rest with
      | some ((path, last), ']' :: ']' :: rest') => do
          let d' ← d.openRepeated path last
          let rest'' ← finishLine rest'
          return (d', rest'')
      | _ => none
  | '[' :: rest =>
      match key rest with
      | some ((path, last), ']' :: rest') => do
          let d' ← d.openTable path last
          let rest'' ← finishLine rest'
          return (d', rest'')
      | _ => none
  | _ =>
      match keyItem (value (nestingLimit - 1)) cs with
      | some (((path, last), item), rest) => do
          let d' ← d.add path last item
          let rest' ← finishLine rest
          return (d', rest')
      | none => none

/-- Reads what is left of a file. -/
def statements (d : Document) (cs : List Char) : Option Document :=
  match skipLines cs with
  | none => none
  | some [] => some d
  | some start =>
      match statement d start with
      | none => none
      | some (d', rest) => if rest.length < cs.length then statements d' rest else none
termination_by cs.length

/-- A text without the byte-order mark at its start. -/
def dropByteOrderMark : List Char → List Char
  | '\ufeff' :: rest => rest
  | cs => cs

/-- The tables of a file, if its text is TOML. -/
def parse? (text : String) : Option Entries :=
  (statements .empty (dropByteOrderMark text.toList)).map Document.root

end NaturalDeduction.Toml
