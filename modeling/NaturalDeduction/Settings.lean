/-
  NaturalDeduction.Settings
  ─────────────────────────
  The settings of the checker and the file that holds them.

      [checker]
      strict_line_order = true
      exact_formulas = true

      [output]
      color = true

  Every setting may be left out, and unknown keys are ignored.
-/
import NaturalDeduction.Proof.Basic
import NaturalDeduction.Toml.Parser

namespace NaturalDeduction

open Toml (Entries Item)

/-- The settings of the checker. -/
structure Settings where
  options : CheckOptions := {}
  color : Bool := true
deriving DecidableEq

namespace Settings

/-- The name of the settings file. -/
def fileName : String := "lrcheck.toml"

/-- The entries of a section that may be missing.  A date counts as a section
without settings; anything else but a table is refused. -/
def section? (name : String) (entries : Entries) : Option Entries :=
  match entries.lookup name with
  | none => some []
  | some (.table _ inner) => some inner
  | some (.scalar .moment) => some []
  | some _ => none

/-- A switch that may be missing and is on then.  Anything but a boolean is
refused. -/
def switch? (name : String) (entries : Entries) : Option Bool :=
  match entries.lookup name with
  | none => some true
  | some (.scalar (.boolean value)) => some value
  | some _ => none

/-- The settings that a file gives. -/
def ofEntries? (entries : Entries) : Option Settings := do
  let checker ← section? "checker" entries
  let output ← section? "output" entries
  let strictOrder ← switch? "strict_line_order" checker
  let exactFormulas ← switch? "exact_formulas" checker
  let color ← switch? "color" output
  return ⟨⟨strictOrder, exactFormulas⟩, color⟩

/-- The settings in the text of a file. -/
def parse? (text : String) : Option Settings :=
  match Toml.parse? text with
  | none => none
  | some entries => ofEntries? entries

end Settings

end NaturalDeduction
