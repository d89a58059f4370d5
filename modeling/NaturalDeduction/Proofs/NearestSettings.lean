/-
  NaturalDeduction.Proofs.NearestSettings
  ───────────────────────────────────────
  **WHICH SETTINGS A RUN USES.**

  Without a named file the search starts in the directory of the program and
  goes up.  Names are given from the innermost to the outermost, so the
  directories at or above `names` are the ends of `names`.  Main statements:

    • `findSettings_eq_some`, `findSettings_eq_none` — what the search finds, by
      induction on the names,
    • `loadSettings_nearest` — a run in a file tree uses the settings file that
      is nearest to its directory, and the usual settings if there is none.
-/
import NaturalDeduction.Command.Run

namespace NaturalDeduction.Command

/-! ## §1. The search. -/

section

variable (read : String → Contents) (top : String)

/-- Has a directory a settings file, readable or not? -/
def HasSettings (names : List String) : Prop := isThere (read (settingsPath top names)) = true

/-- A directory at or above another one is the nearest with a settings file. -/
structure IsNearest (names here : List String) : Prop where
  above : here <:+ names
  found : HasSettings read top here
  nearest : ∀ below, below <:+ names → here.length < below.length → ¬ HasSettings read top below

end

variable {read : String → Contents} {top : String} {names here : List String}

/-- The search ends at a settings file. -/
theorem findSettings_of_hasSettings (h : HasSettings read top names) :
    findSettings read top names
      = some (settingsPath top names, read (settingsPath top names)) := by
  have hthere : isThere (read (settingsPath top names)) = true := h
  unfold findSettings nearestSettings
  simp [hthere]

/-- The search goes up from a directory without one. -/
theorem findSettings_cons {name : String} (h : ¬ HasSettings read top (name :: names)) :
    findSettings read top (name :: names) = findSettings read top names := by
  have hnone : isThere (read (settingsPath top (name :: names))) = false :=
    Bool.eq_false_iff.mpr h
  unfold findSettings
  rw [nearestSettings]
  simp [hnone]

/-- The search ends at the top. -/
theorem findSettings_nil (h : ¬ HasSettings read top []) : findSettings read top [] = none := by
  have hnone : isThere (read (settingsPath top [])) = false := Bool.eq_false_iff.mpr h
  unfold findSettings nearestSettings
  simp [hnone]

/-- **The search finds the nearest settings file.** -/
theorem findSettings_eq_some (h : IsNearest read top names here) :
    findSettings read top names = some (settingsPath top here, read (settingsPath top here)) := by
  induction names with
  | nil =>
      obtain rfl : here = [] := List.suffix_nil.mp h.above
      exact findSettings_of_hasSettings h.found
  | cons name names ih =>
      rcases List.suffix_cons_iff.mp h.above with rfl | habove
      · exact findSettings_of_hasSettings h.found
      · have hshorter : here.length < (name :: names).length :=
          Nat.lt_succ_of_le habove.length_le
        rw [findSettings_cons (h.nearest _ List.suffix_rfl hshorter)]
        refine ih ⟨habove, h.found, fun below hbelow => ?_⟩
        exact h.nearest below (hbelow.trans (List.suffix_cons name names))

/-- The search finds nothing only where there is nothing. -/
theorem findSettings_eq_none (h : ∀ here, here <:+ names → ¬ HasSettings read top here) :
    findSettings read top names = none := by
  induction names with
  | nil => exact findSettings_nil (h [] List.suffix_rfl)
  | cons name names ih =>
      rw [findSettings_cons (h _ List.suffix_rfl)]
      exact ih fun here hhere => h here (hhere.trans (List.suffix_cons name names))

/-! ## §2. The settings of a run. -/

/-- **A run without named settings uses the nearest ones**, and the usual ones if no
directory at or above its own has any. -/
theorem loadSettings_nearest (tree : FileTree) (directory : List String) :
    (∀ here, IsNearest (tree.read []) "" directory.reverse here →
        loadSettings (tree.workspace directory) none
          = readSettings (settingsPath "" here) (tree.read [] (settingsPath "" here)))
      ∧ ((∀ here, here <:+ directory.reverse → ¬ HasSettings (tree.read []) "" here) →
        loadSettings (tree.workspace directory) none = .ok {}) := by
  unfold loadSettings FileTree.workspace FileTree.settingsFile
  refine ⟨fun here hnearest => ?_, fun hnone => ?_⟩
  · dsimp only
    rw [findSettings_eq_some hnearest]
  · dsimp only
    rw [findSettings_eq_none hnone]

end NaturalDeduction.Command
