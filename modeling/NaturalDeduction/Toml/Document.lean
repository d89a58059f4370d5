/-
  NaturalDeduction.Toml.Document
  ──────────────────────────────
  **THE TABLES OF A TOML FILE**, and what may be added to them.

  A table is defined once.  A table that exists only because a header named
  something inside it may still get a header of its own; one that dotted keys
  brought about may be extended by dotted keys only; one that was written in
  braces is complete.
-/
import NaturalDeduction.Toml.Scalar

namespace NaturalDeduction.Toml

/-- How a table came about. -/
inductive Origin where
  /-- By a header of its own. -/
  | header
  /-- By a header that names something inside it. -/
  | implied
  /-- By a dotted key. -/
  | dotted
  /-- Written out in braces. -/
  | inline
deriving DecidableEq

/-- What a key stands for. -/
inductive Item where
  | scalar (value : Scalar)
  | text
  | array
  | table (origin : Origin) (entries : List (String × Item))
  /-- Tables under one repeated header, in order. -/
  | tables (all : List (List (String × Item)))

/-- The entries of a table, in order. -/
abbrev Entries := List (String × Item)

/-- The entries with a new item in place of the one under a key. -/
def replaceEntry (key : String) (item : Item) (entries : Entries) : Entries :=
  entries.map fun entry => if entry.1 = key then (key, item) else entry

/-- The entries with one more, unless the key is taken. -/
def addEntry (key : String) (item : Item) (entries : Entries) : Option Entries :=
  if (entries.lookup key).isSome then none else some (entries ++ [(key, item)])

/-- Adds an item under a dotted key, given as the keys before the last dot and
the last key. -/
def addDotted (key : String) (item : Item) : List String → Entries → Option Entries
  | [], entries => addEntry key item entries
  | k :: path, entries =>
      match entries.lookup k with
      | none =>
          (addDotted key item path []).map fun inner => entries ++ [(k, .table .dotted inner)]
      | some (.table origin inner) =>
          -- A key may pass through a table that headers implied, but not add to it.
          if origin = .dotted || (origin = .implied && !path.isEmpty) then
            (addDotted key item path inner).map fun inner' =>
              replaceEntry k (.table origin inner') entries
          else none
      | some (.tables all) =>
          match all.getLast? with
          | none => none
          | some inner =>
              if path.isEmpty then none
              else
                (addDotted key item path inner).map fun inner' =>
                  replaceEntry k (.tables (all.dropLast ++ [inner'])) entries
      | some _ => none

/-- Changes the table at the end of a path.  Tables on the way that do not exist
yet are implied; of repeated tables the last is meant. -/
def alter (change : Entries → Option Entries) : List String → Entries → Option Entries
  | [], entries => change entries
  | k :: path, entries =>
      match entries.lookup k with
      | none => (alter change path []).map fun inner => entries ++ [(k, .table .implied inner)]
      | some (.table origin inner) =>
          if origin = .inline then none
          else
            (alter change path inner).map fun inner' =>
              replaceEntry k (.table origin inner') entries
      | some (.tables all) =>
          match all.getLast? with
          | none => none
          | some inner =>
              (alter change path inner).map fun inner' =>
                replaceEntry k (.tables (all.dropLast ++ [inner'])) entries
      | some _ => none

/-- Defines the table under a key by its header. -/
def defineTable (key : String) (entries : Entries) : Option Entries :=
  match entries.lookup key with
  | none => some (entries ++ [(key, .table .header [])])
  | some (.table .implied inner) => some (replaceEntry key (.table .header inner) entries)
  | some _ => none

/-- Starts one more table under a repeated header. -/
def repeatTable (key : String) (entries : Entries) : Option Entries :=
  match entries.lookup key with
  | none => some (entries ++ [(key, .tables [[]])])
  | some (.tables all) => some (replaceEntry key (.tables (all ++ [[]])) entries)
  | some _ => none

/-- A file as far as it has been read: its tables, and the path of the table
that the next keys belong to. -/
structure Document where
  root : Entries
  current : List String

namespace Document

/-- An empty file. -/
def empty : Document := ⟨[], []⟩

/-- Adds an item under a dotted key of the current table. -/
def add (d : Document) (path : List String) (key : String) (item : Item) : Option Document :=
  (alter (addDotted key item path) d.current d.root).map fun root => ⟨root, d.current⟩

/-- Goes on with the table that a header names. -/
def openTable (d : Document) (path : List String) (key : String) : Option Document :=
  (alter (defineTable key) path d.root).map fun root => ⟨root, path ++ [key]⟩

/-- Goes on with one more table under a repeated header. -/
def openRepeated (d : Document) (path : List String) (key : String) : Option Document :=
  (alter (repeatTable key) path d.root).map fun root => ⟨root, path ++ [key]⟩

end Document

end NaturalDeduction.Toml
