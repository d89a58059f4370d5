/-
  NaturalDeduction.Command.Files
  ──────────────────────────────
  The files that the program reads.

  The program sees its surroundings as a `Workspace`: what reading a path gives,
  and the nearest settings file.  A `FileTree` is such surroundings held in
  memory.
-/
import NaturalDeduction.Settings

namespace NaturalDeduction.Command

/-! ## §1. Reading. -/

/-- Why a file could not be read. -/
inductive ReadFault where
  | notFound
  | notDirectory
  | isDirectory
  | notUtf8
  | other (message : String)
deriving DecidableEq

/-- The message for a file that could not be read. -/
def ReadFault.message : ReadFault → String
  | notFound => "No such file or directory (os error 2)"
  | notDirectory => "Not a directory (os error 20)"
  | isDirectory => "Is a directory (os error 21)"
  | notUtf8 => "stream did not contain valid UTF-8"
  | other message => message

/-- What reading a file gives. -/
abbrev Contents := Except ReadFault String

/-- The text that bytes encode. -/
def decodeText (bytes : ByteArray) : Contents :=
  match String.fromUTF8? bytes with
  | some text => .ok text
  | none => .error .notUtf8

/-- The surroundings of the program. -/
structure Workspace where
  /-- What reading a path gives. -/
  read : String → Contents
  /-- The settings file in the directory of the program or the nearest one
  above it, if there is one. -/
  settingsFile : Option (String × Contents)

/-! ## §2. Names of files. -/

/-- The parts of a path between slashes. -/
def pathParts (path : String) : List String :=
  (path.toList.splitOn '/').map String.ofList

/-- The last name in a path, not counting slashes and dots behind it. -/
def fileName? (path : String) : Option String :=
  match ((pathParts path).filter fun part => part ≠ "" && part ≠ ".").getLast? with
  | none => none
  | some name => if name = ".." then none else some name

/-- What stands behind the last dot of a file's name, unless the name starts
with that dot. -/
def extension? (path : String) : Option String :=
  match fileName? path with
  | none => none
  | some name =>
      let reversed := name.toList.reverse
      let extension := reversed.takeWhile (· ≠ '.')
      match reversed.dropWhile (· ≠ '.') with
      | [] | [_] => none
      | _ => some (String.ofList extension.reverse)

/-! ## §3. The nearest settings file. -/

/-- Is there anything to be read, readable or not? -/
def isThere : Contents → Bool
  | .error .notFound | .error .notDirectory => false
  | _ => true

/-- The path to the settings file of a directory, whose names are given from the
innermost to the outermost. -/
def settingsPath (top : String) (names : List String) : String :=
  top ++ String.intercalate "/" (names.reverse ++ [Settings.fileName])

/-- The nearest settings file at or above a directory, and what reading it
gives. -/
def nearestSettings {m : Type → Type} [Monad m] (read : String → m Contents) (top : String)
    (names : List String) : m (Option (String × Contents)) := do
  let contents ← read (settingsPath top names)
  if isThere contents then return some (settingsPath top names, contents)
  else
    match names with
    | [] => return none
    | _ :: above => nearestSettings read top above

/-- The nearest settings file in surroundings that do not change. -/
def findSettings (read : String → Contents) (top : String) (names : List String) :
    Option (String × Contents) :=
  Id.run (nearestSettings (fun path => pure (read path)) top names)

/-! ## §4. File trees. -/

/-- A file or a directory. -/
inductive Node where
  | file (bytes : ByteArray)
  | directory

/-- Files and directories by the names on the way to them. -/
structure FileTree where
  nodes : List (List String × Node)

namespace FileTree

/-- What stands at the end of a path from the top.  Whatever holds something
else is a directory. -/
def node? (tree : FileTree) (names : List String) : Option Node :=
  match tree.nodes.lookup names with
  | some node => some node
  | none =>
      if names.isEmpty || tree.nodes.any fun (path, _) => names.isPrefixOf path then
        some .directory
      else none

/-- Does the part of a path stand for a directory that is there already? -/
def isDots (part : String) : Bool := part = "" || part = "." || part = ".."

/-- Follows the parts of a path from a directory.  Above the top of the tree there
are directories without files. -/
def follow (tree : FileTree) (directory : List String) : List String → Except ReadFault Node
  | [] => .ok .directory
  | part :: rest =>
      if part = "" || part = "." then follow tree directory rest
      else if part = ".." then
        if directory.isEmpty then
          if rest.all isDots then .ok .directory else .error .notFound
        else follow tree directory.dropLast rest
      else
        match tree.node? (directory ++ [part]) with
        | none => .error .notFound
        | some .directory => follow tree (directory ++ [part]) rest
        | some (.file bytes) => if rest.isEmpty then .ok (.file bytes) else .error .notDirectory

/-- What reading a path from a directory gives. -/
def read (tree : FileTree) (directory : List String) (path : String) : Contents :=
  if path = "" then .error .notFound
  else if path.toList.head? = some '/' then
    if (pathParts path).all isDots then .error .isDirectory else .error .notFound
  else
    match tree.follow directory (pathParts path) with
    | .error fault => .error fault
    | .ok .directory => .error .isDirectory
    | .ok (.file bytes) => decodeText bytes

/-- The nearest settings file at or above a directory, and what reading it gives. -/
def settingsFile (tree : FileTree) (directory : List String) : Option (String × Contents) :=
  findSettings (tree.read []) "" directory.reverse

/-- The surroundings of a program that runs in a directory of the tree. -/
def workspace (tree : FileTree) (directory : List String) : Workspace :=
  ⟨tree.read directory, tree.settingsFile directory⟩

end FileTree

end NaturalDeduction.Command
