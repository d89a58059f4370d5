/-
  NaturalDeduction.Subproof.Basic
  ───────────────────────────────
  **SUBPROOFS: which are open, and what a line may see.**

  Subproofs are numbered in the order of their opening and never renumbered.
  The place of a line is its PATH: the subproofs around it, outermost first.
  A line may cite what was recorded on a path that its own path extends.  A
  subproof may be cited as a whole once it is closed, by lines inside the
  subproof that encloses it.
-/
import NaturalDeduction.Formula.Substitution

namespace NaturalDeduction

/-! ## §1. The records. -/

/-- The subproofs around a place, outermost first, by their numbers. -/
abbrev Path := List Nat

/-- What is remembered of a subproof. -/
structure Subproof where
  /-- The variable that the first line brought into play. -/
  flag : Option Name
  /-- Does the first line make an assumption? -/
  assumes : Bool
  /-- Did the flag occur in no line that could be seen when the subproof was
  opened?  True if there is no flag. -/
  flagFresh : Bool
  /-- The path of the place where the subproof was opened. -/
  parent : Path
  /-- The last line directly inside the subproof, not in a nested one. -/
  lastDirect : Option Nat
deriving DecidableEq

/-- The subproofs of a proof so far, and the places of its lines. -/
structure Scopes where
  /-- Every subproof, in the order of opening. -/
  subproofs : List Subproof
  /-- Which subproof a line opened; the latest entry for a line counts. -/
  openedBy : List (Nat × Nat)
  /-- The subproofs that are open now. -/
  path : Path
  /-- The paths of the recorded lines; the latest entry for a line counts. -/
  places : List (Nat × Path)
deriving DecidableEq

/-- What matters of a line for the subproofs around it. -/
structure Entry where
  number : Nat
  depth : Nat
  flag : Option Name
  assumes : Bool
deriving DecidableEq

/-- Does a line start a subproof of its own? -/
def Entry.opens (entry : Entry) : Bool := entry.assumes || entry.flag.isSome

/-- Why a line does not fit the subproofs around it. -/
inductive StructureFault where
  | depthJump (current wanted : Nat)
  | unopenedSubproof
  | assumptionOutside
  | flagOutside
deriving DecidableEq

/-- The message for a line that does not fit. -/
def StructureFault.message : StructureFault → String
  | depthJump current wanted =>
      "subproof depth jumps from " ++ Nat.repr current ++ " to " ++ Nat.repr wanted
  | unopenedSubproof => "a subproof must start with `-assumption` or a fresh variable"
  | assumptionOutside => "`-assumption` must open a new subproof"
  | flagOutside => "a fresh variable may only be introduced when opening a subproof"

namespace Scopes

/-- Before the first line. -/
def empty : Scopes := ⟨[], [], [], []⟩

/-! ## §2. What can be seen. -/

/-- Can a line be seen from a path? -/
def isVisibleFrom (s : Scopes) (path : Path) (number : Nat) : Bool :=
  (s.places.lookup number).any fun place => place.isPrefixOf path

/-- Can a line be seen from the current place? -/
def isVisible (s : Scopes) (number : Nat) : Bool := s.isVisibleFrom s.path number

/-- Does a name occur in no formula that can be seen from a path? -/
def isFreshAt (s : Scopes) (formula? : Nat → Option Formula) (path : Path) (name : Name) : Bool :=
  s.places.all fun (number, _) =>
    !(s.isVisibleFrom path number && (formula? number).any fun f => f.occurs name)

/-- The closed subproof from line `first` to line `last`, if it can be cited
from the current place. -/
def closed? (s : Scopes) (first last : Nat) : Option Subproof :=
  match s.openedBy.lookup first with
  | none => none
  | some id =>
      match s.subproofs[id]? with
      | none => none
      | some subproof =>
          if !s.path.contains id && subproof.parent.isPrefixOf s.path
              && subproof.lastDirect = some last then some subproof
          else none

/-! ## §3. Going from line to line. -/

/-- Opens a subproof for a line at the end of a path. -/
def openAt (s : Scopes) (formula? : Nat → Option Formula) (parent : Path) (entry : Entry) :
    Scopes :=
  let id := s.subproofs.length
  let subproof : Subproof := {
    flag := entry.flag
    assumes := entry.assumes
    flagFresh := entry.flag.all (s.isFreshAt formula? parent)
    parent
    lastDirect := none }
  { subproofs := s.subproofs ++ [subproof]
    openedBy := (entry.number, id) :: s.openedBy
    path := parent ++ [id]
    places := s.places }

/-- Closes and opens subproofs so that a line stands at its own depth.  A line
that starts a subproof at a depth that is already open closes the one there
and takes its place.  When a line does not fit, the subproofs that it closed
stay closed.  `formula?` gives the formulas of the lines so far. -/
def enter (s : Scopes) (formula? : Nat → Option Formula) (entry : Entry) :
    Except StructureFault Unit × Scopes :=
  let current := s.path.length
  if current + 1 < entry.depth then (.error (.depthJump current entry.depth), s)
  else if entry.depth = current + 1 then
    if entry.opens then (.ok (), s.openAt formula? s.path entry)
    else (.error .unopenedSubproof, s)
  else
    -- Whatever lies deeper than the line ends here.
    let left := { s with path := s.path.take entry.depth }
    if entry.opens then
      if entry.depth = 0 then
        (.error (if entry.assumes then .assumptionOutside else .flagOutside), left)
      -- The new subproof is a sibling of the one at the line's own depth.
      else (.ok (), left.openAt formula? left.path.dropLast entry)
    else (.ok (), left)

/-- Records that a line stands at the current place. -/
def record (s : Scopes) (number : Nat) : Scopes :=
  { s with
    subproofs :=
      match s.path.getLast? with
      | none => s.subproofs
      | some id =>
          s.subproofs.modify id fun subproof => { subproof with lastDirect := some number }
    places := (number, s.path) :: s.places }

end Scopes

end NaturalDeduction
