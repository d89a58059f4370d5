/-
  NaturalDeduction.Proofs.Walk
  ────────────────────────────
  **A WALK THROUGH THE SUBPROOFS**: lines entered and recorded one after the
  other.

  Paths are made of the numbers of subproofs, but where a line stands can be
  read off the depths: a place lasts until a line at a lesser depth comes, or a
  line that starts a subproof at the same depth.  Main statements:

    • `Walk.length_path` — a line stands as deep as it says,
    • `Walk.isPrefix_iff_lasts` — one path extends another exactly if the
      place of the earlier line lasts until the later one,
    • `Walk.exists_of_isVisible`, `Walk.exists_of_closed?` — which lines and
      which subproofs can be cited after entering a line.
-/
import Mathlib.Data.List.Nodup
import NaturalDeduction.Subproof.Basic

namespace NaturalDeduction

/-! ## §1. Look-ups by number and by place. -/

/-- What a look-up finds is on the list. -/
theorem mem_of_lookup {β : Type} {l : List (Nat × β)} {n : Nat} {b : β}
    (h : l.lookup n = some b) : (n, b) ∈ l := by
  obtain ⟨before, after, rfl, -⟩ := List.lookup_eq_some_iff.mp h
  simp

/-- If no number stands twice on the list, a look-up finds what is there. -/
theorem lookup_eq_some_of_mem {β : Type} {l : List (Nat × β)} (hl : (l.map Prod.fst).Nodup)
    {n : Nat} {b : β} (h : (n, b) ∈ l) : l.lookup n = some b := by
  obtain ⟨before, after, rfl⟩ := List.append_of_mem h
  refine List.lookup_eq_some_iff.mpr ⟨before, after, rfl, fun p hp => ?_⟩
  rw [List.map_append, List.map_cons, List.nodup_append] at hl
  have hne : p.1 ≠ n := hl.2.2 p.1 (List.mem_map_of_mem hp) n List.mem_cons_self
  simpa using Ne.symm hne

/-- If no number was given twice, a number has one place on the list. -/
theorem index_eq_of_number {α : Type} {number : α → Nat} {l : List α}
    (hl : (l.map number).Nodup) {i j : Nat} {a b : α} (hi : l[i]? = some a)
    (hj : l[j]? = some b) (h : number a = number b) : i = j := by
  have hlt : i < (l.map number).length := by
    rw [List.length_map]
    exact (List.getElem?_eq_some_iff.mp hi).1
  refine (List.getElem?_inj hlt hl).mp ?_
  rw [List.getElem?_map, List.getElem?_map, hi, hj, Option.map_some, Option.map_some, h]

/-- Adding an entry at the end leaves the others where they are. -/
theorem getElem?_append_of_some {α : Type} {l : List α} {n : Nat} {a b : α}
    (h : l[n]? = some a) : (l ++ [b])[n]? = some a := by
  rw [List.getElem?_append_left (List.getElem?_eq_some_iff.mp h).1]
  exact h

/-- An entry of a longer list is an old one or the new one at its end. -/
theorem getElem?_concat {α : Type} {l : List α} {n : Nat} {a b : α}
    (h : (l ++ [b])[n]? = some a) : l[n]? = some a ∨ (n = l.length ∧ b = a) := by
  by_cases hn : n < l.length
  · left
    rwa [List.getElem?_append_left hn] at h
  · right
    have hbound := (List.getElem?_eq_some_iff.mp h).1
    rw [List.length_append, List.length_singleton] at hbound
    obtain rfl : n = l.length := by omega
    rw [List.getElem?_concat_length, Option.some.injEq] at h
    exact ⟨rfl, h⟩

/-! ## §2. The law of depths. -/

/-- Does the place of line `i` last until line `j`?  It does if every line
after `i` up to `j` is at least as deep and starts no subproof at the very same
depth. -/
def Entry.Lasts (entries : List Entry) (i j : Nat) : Prop :=
  ∀ e ∈ entries[i]?, ∀ l ∈ (entries.take (j + 1)).drop (i + 1),
    e.depth ≤ l.depth ∧ (l.depth = e.depth → l.opens = false)

/-- Does line `j` stand in the subproof that line `i` starts? -/
def Entry.Encloses (entries : List Entry) (i j : Nat) : Prop :=
  i ≤ j ∧ (∃ e ∈ entries[i]?, e.opens = true) ∧ Entry.Lasts entries i j

/-- Whether a place lasts can be read off the lines. -/
instance (entries : List Entry) (i j : Nat) : Decidable (Entry.Lasts entries i j) :=
  inferInstanceAs (Decidable (∀ e ∈ entries[i]?, ∀ l ∈ (entries.take (j + 1)).drop (i + 1),
    e.depth ≤ l.depth ∧ (l.depth = e.depth → l.opens = false)))

/-- A place lasts exactly if no line on the way closes it. -/
theorem Entry.lasts_iff {entries : List Entry} {i j : Nat} {e : Entry}
    (hi : entries[i]? = some e) :
    Entry.Lasts entries i j ↔ ∀ k l, i < k → k ≤ j → entries[k]? = some l →
      e.depth ≤ l.depth ∧ (l.depth = e.depth → l.opens = false) := by
  unfold Entry.Lasts
  constructor
  · intro h k l hik hkj hk
    refine h e hi l (List.mem_iff_getElem?.mpr ⟨k - (i + 1), ?_⟩)
    rw [List.getElem?_drop, List.getElem?_take_of_lt (by omega)]
    rw [show i + 1 + (k - (i + 1)) = k from by omega]
    exact hk
  · intro h e' he' l hl
    rw [Option.mem_def, hi, Option.some.injEq] at he'
    obtain ⟨n, hn⟩ := List.mem_iff_getElem?.mp hl
    have hlt := (List.getElem?_eq_some_iff.mp hn).1
    rw [List.length_drop, List.length_take] at hlt
    rw [List.getElem?_drop, List.getElem?_take_of_lt (by omega)] at hn
    rw [← he']
    exact h (i + 1 + n) l (by omega) (by omega) hn

namespace Scopes

/-! ## §3. One step. -/

theorem dropLast_take {path : Path} {n : Nat} (h : n ≤ path.length) :
    (path.take n).dropLast = path.take (n - 1) := by
  rw [List.dropLast_eq_take, List.take_take, List.length_take]
  congr 1
  omega

/-- Why a line does not fit, if it does not: its depth, what it starts, and how
deep the place before it is decide. -/
def fault? (current : Nat) (entry : Entry) : Option StructureFault :=
  if current + 1 < entry.depth then some (.depthJump current entry.depth)
  else if entry.depth = current + 1 then
    if entry.opens then none else some .unopenedSubproof
  else if entry.opens ∧ entry.depth = 0 then
    some (if entry.assumes then .assumptionOutside else .flagOutside)
  else none

/-- The subproofs around a line that fits. -/
def entered (s : Scopes) (known : Nat → Option Formula) (entry : Entry) : Scopes :=
  if entry.opens then s.openAt known (s.path.take (entry.depth - 1)) entry
  else { s with path := s.path.take entry.depth }

/-- A line that does not fit is refused for that reason. -/
theorem enter_of_fault {s : Scopes} {entry : Entry} {fault : StructureFault}
    (h : fault? s.path.length entry = some fault) (known : Nat → Option Formula) :
    (s.enter known entry).1 = .error fault := by
  unfold fault? at h
  unfold enter
  dsimp only
  split at h
  · next hjump => rw [if_pos hjump, Option.some.inj h]
  · next hjump =>
      rw [if_neg hjump]
      split at h
      · next hdeeper =>
          rw [if_pos hdeeper]
          split at h
          · exact absurd h (by simp)
          · next hopens => rw [if_neg hopens, Option.some.inj h]
      · next hdeeper =>
          rw [if_neg hdeeper]
          split at h
          · next hout => rw [if_pos hout.1, if_pos hout.2, Option.some.inj h]
          · exact absurd h (by simp)

/-- A line that fits is entered. -/
theorem enter_of_fits {s : Scopes} {entry : Entry} (h : fault? s.path.length entry = none)
    (known : Nat → Option Formula) :
    s.enter known entry = (.ok (), s.entered known entry) := by
  unfold fault? at h
  unfold enter entered
  dsimp only
  split at h
  · exact absurd h (by simp)
  · next hjump =>
      rw [if_neg hjump]
      split at h
      · next hdeeper =>
          rw [if_pos hdeeper]
          split at h
          · next hopens =>
              rw [if_pos hopens, if_pos hopens, hdeeper, Nat.add_sub_cancel, List.take_length]
          · exact absurd h (by simp)
      · next hdeeper =>
          rw [if_neg hdeeper]
          split at h
          · exact absurd h (by simp)
          · next hout =>
              by_cases hopens : entry.opens = true
              · have hpos : entry.depth ≠ 0 := fun hzero => hout ⟨hopens, hzero⟩
                rw [if_pos hopens, if_pos hopens, if_neg hpos, dropLast_take (by omega)]
                rfl
              · rw [if_neg hopens, if_neg hopens]

/-- A line that was entered fits. -/
theorem fits_of_enter {s s' : Scopes} {known : Nat → Option Formula} {entry : Entry}
    (h : s.enter known entry = (.ok (), s')) :
    fault? s.path.length entry = none ∧ s' = s.entered known entry := by
  cases hfault : fault? s.path.length entry with
  | some fault =>
      have hrefused := enter_of_fault hfault known
      rw [h] at hrefused
      exact absurd hrefused (by simp)
  | none =>
      rw [enter_of_fits hfault known] at h
      exact ⟨rfl, (Prod.mk.inj h).2.symm⟩

/-- Which lines fit: those that start a subproof no deeper than one level below
the place before them, and others no deeper than that place. -/
theorem fault?_eq_none_iff {current : Nat} {entry : Entry} :
    fault? current entry = none
      ↔ (entry.opens = true ∧ 0 < entry.depth ∧ entry.depth ≤ current + 1)
        ∨ (entry.opens = false ∧ entry.depth ≤ current) := by
  unfold fault?
  by_cases hjump : current + 1 < entry.depth
  · rw [if_pos hjump]
    refine ⟨fun h => absurd h (by simp), ?_⟩
    rintro (⟨-, -, hle⟩ | ⟨-, hle⟩) <;> omega
  · rw [if_neg hjump]
    cases hopens : entry.opens with
    | true =>
        by_cases hzero : entry.depth = 0
        · simp [hzero]
        · have hfits : 0 < entry.depth ∧ entry.depth ≤ current + 1 := by omega
          simp [hzero, hfits]
    | false =>
        by_cases hdeeper : entry.depth = current + 1
        · simp [hdeeper]
        · have hfits : entry.depth ≤ current := by omega
          simp [hdeeper, hfits]

/-- **What entering a line does.**  A line that starts a subproof opens it one
level above its own depth; any other line only closes what is deeper. -/
theorem enter_eq_ok {s s' : Scopes} {known : Nat → Option Formula} {entry : Entry}
    (h : s.enter known entry = (.ok (), s')) :
    (entry.opens = true ∧ 0 < entry.depth ∧ entry.depth ≤ s.path.length + 1
        ∧ s' = s.openAt known (s.path.take (entry.depth - 1)) entry)
      ∨ (entry.opens = false ∧ entry.depth ≤ s.path.length
        ∧ s' = { s with path := s.path.take entry.depth }) := by
  obtain ⟨hfits, rfl⟩ := fits_of_enter h
  unfold entered
  rcases fault?_eq_none_iff.mp hfits with ⟨hopens, hpos, hle⟩ | ⟨hopens, hle⟩
  · left
    rw [if_pos hopens]
    exact ⟨hopens, hpos, hle, rfl⟩
  · right
    rw [if_neg (by simp [hopens])]
    exact ⟨hopens, hle, rfl⟩

@[simp] theorem record_path (s : Scopes) (number : Nat) : (s.record number).path = s.path := rfl

@[simp] theorem record_places (s : Scopes) (number : Nat) :
    (s.record number).places = (number, s.path) :: s.places := rfl

/-- Recording a line touches the innermost open subproof and no other. -/
theorem record_getElem? (s : Scopes) (number id : Nat) :
    (s.record number).subproofs[id]? = (s.subproofs[id]?).map fun subproof =>
      if s.path.getLast? = some id then { subproof with lastDirect := some number }
      else subproof := by
  unfold record
  cases hlast : s.path.getLast? with
  | none => simp
  | some top =>
      rw [List.getElem?_modify]
      by_cases htop : top = id
      · simp [htop]
      · simp [htop]

@[simp] theorem record_subproofs_length (s : Scopes) (number : Nat) :
    (s.record number).subproofs.length = s.subproofs.length := by
  unfold record
  cases s.path.getLast? with
  | none => rfl
  | some top => exact List.length_modify ..

theorem enter_places {s s' : Scopes} {known : Nat → Option Formula} {entry : Entry}
    (h : s.enter known entry = (.ok (), s')) : s'.places = s.places := by
  rcases enter_eq_ok h with ⟨-, -, -, rfl⟩ | ⟨-, -, rfl⟩
  · rfl
  · rfl

/-- A line that was entered stands as deep as it says. -/
theorem enter_path_length {s s' : Scopes} {known : Nat → Option Formula} {entry : Entry}
    (h : s.enter known entry = (.ok (), s')) : s'.path.length = entry.depth := by
  rcases enter_eq_ok h with ⟨-, hpos, hle, rfl⟩ | ⟨-, hle, rfl⟩
  · show (s.path.take (entry.depth - 1) ++ [s.subproofs.length]).length = entry.depth
    rw [List.length_append, List.length_take, List.length_singleton]
    omega
  · show (s.path.take entry.depth).length = entry.depth
    rw [List.length_take]
    omega

/-- **A path that knows no newer subproof extends to the entered line** exactly
if it extended to the place before and the line does not close it. -/
theorem isPrefix_enter_iff {s s' : Scopes} {known : Nat → Option Formula} {entry : Entry}
    (h : s.enter known entry = (.ok (), s')) {p : Path} (hp : ∀ id ∈ p, id < s.subproofs.length) :
    p <+: s'.path ↔ p <+: s.path ∧ p.length ≤ entry.depth
      ∧ (entry.depth = p.length → entry.opens = false) := by
  rcases enter_eq_ok h with ⟨hopens, hpos, -, rfl⟩ | ⟨hopens, -, rfl⟩
  · show p <+: s.path.take (entry.depth - 1) ++ [s.subproofs.length] ↔ _
    rw [List.prefix_concat_iff, List.prefix_take_iff]
    constructor
    · rintro (hself | ⟨hpre, hlen⟩)
      · -- The new subproof is on no path that is older than it.
        exact absurd (hp s.subproofs.length (by rw [hself]; simp)) (Nat.lt_irrefl _)
      · exact ⟨hpre, by omega, by omega⟩
    · rintro ⟨hpre, hlen, hsame⟩
      right
      refine ⟨hpre, ?_⟩
      have hne : entry.depth ≠ p.length := by
        intro heq
        rw [hsame heq] at hopens
        exact Bool.noConfusion hopens
      omega
  · show p <+: s.path.take entry.depth ↔ _
    rw [List.prefix_take_iff]
    exact ⟨fun hpre => ⟨hpre.1, hpre.2, fun _ => hopens⟩, fun hpre => ⟨hpre.1, hpre.2.1⟩⟩

/-! ## §4. Walks. -/

/-- A line that was entered and recorded: its entry, the formulas that were
known when it was entered, and the path it got. -/
structure Visit where
  entry : Entry
  known : Nat → Option Formula
  path : Path

/-- The subproofs after entering and recording some lines in order. -/
inductive Walk : List Visit → Scopes → Prop
  | start : Walk [] .empty
  | next {h : List Visit} {s s' : Scopes} {entry : Entry} {known : Nat → Option Formula} :
      Walk h s → s.enter known entry = (.ok (), s') →
      Walk (h ++ [⟨entry, known, s'.path⟩]) (s'.record entry.number)

/-- Every part of a walk is a walk. -/
theorem Walk.take {h : List Visit} {s : Scopes} (hw : Walk h s) (n : Nat) :
    ∃ s', Walk (h.take n) s' := by
  induction hw with
  | start => exact ⟨.empty, by rw [List.take_nil]; exact .start⟩
  | @next h s s' entry known hw henter ih =>
      by_cases hn : n ≤ h.length
      · rw [List.take_append_of_le_length hn]
        exact ih
      · rw [List.take_of_length_le (by simp; omega)]
        exact ⟨_, .next hw henter⟩

/-- The places on record are those of the walk, the latest first. -/
theorem Walk.places_eq {h : List Visit} {s : Scopes} (hw : Walk h s) :
    s.places = (h.map fun v => (v.entry.number, v.path)).reverse := by
  induction hw with
  | start => rfl
  | next hw henter ih => rw [record_places, enter_places henter, ih]; simp

/-- If no number was given twice, the place of a line is on record at its
number. -/
theorem Walk.places_lookup {h : List Visit} {s : Scopes} (hw : Walk h s)
    (hn : (h.map fun v => v.entry.number).Nodup) {v : Visit} (hv : v ∈ h) :
    s.places.lookup v.entry.number = some v.path := by
  refine lookup_eq_some_of_mem ?_ ?_
  · rw [hw.places_eq, List.map_reverse, List.map_map, List.nodup_reverse]
    exact hn
  · rw [hw.places_eq, List.mem_reverse]
    exact List.mem_map_of_mem hv

/-- The current place is that of the last line. -/
theorem Walk.path_eq {h : List Visit} {s : Scopes} {v : Visit} (hw : Walk (h ++ [v]) s) :
    s.path = v.path := by
  generalize hh : h ++ [v] = h' at hw
  cases hw with
  | start => exact absurd hh (by simp)
  | next hw henter =>
      obtain ⟨-, hv⟩ := List.append_inj' hh rfl
      rw [List.singleton_inj.mp hv]
      rfl

/-- The walk up to a line leads to its place. -/
theorem Walk.take_path {h : List Visit} {s : Scopes} (hw : Walk h s) {j : Nat} {v : Visit}
    (hj : h[j]? = some v) : ∃ s', Walk (h.take (j + 1)) s' ∧ s'.path = v.path := by
  obtain ⟨s', hw'⟩ := hw.take (j + 1)
  refine ⟨s', hw', ?_⟩
  rw [List.take_add_one, hj] at hw'
  exact hw'.path_eq

/-- **A line stands as deep as it says.** -/
theorem Walk.length_path {h : List Visit} {s : Scopes} (hw : Walk h s) :
    ∀ v ∈ h, v.path.length = v.entry.depth := by
  induction hw with
  | start => simp
  | next hw henter ih =>
      intro v hv
      rcases List.mem_append.mp hv with hold | hnew
      · exact ih v hold
      · rw [List.mem_singleton.mp hnew]
        exact enter_path_length henter

/-- Subproofs are only ever added. -/
theorem enter_subproofs_length {s s' : Scopes} {known : Nat → Option Formula} {entry : Entry}
    (h : s.enter known entry = (.ok (), s')) : s.subproofs.length ≤ s'.subproofs.length := by
  rcases enter_eq_ok h with ⟨-, -, -, rfl⟩ | ⟨-, -, rfl⟩
  · show s.subproofs.length ≤ (s.subproofs ++ [_]).length
    simp
  · exact Nat.le_refl _

/-- The path of an entered line names subproofs that exist. -/
theorem enter_path_lt {s s' : Scopes} {known : Nat → Option Formula} {entry : Entry}
    (h : s.enter known entry = (.ok (), s')) (hs : ∀ id ∈ s.path, id < s.subproofs.length) :
    ∀ id ∈ s'.path, id < s'.subproofs.length := by
  intro id hid
  rcases enter_eq_ok h with ⟨-, -, -, rfl⟩ | ⟨-, -, rfl⟩
  · have hid' : id ∈ s.path.take (entry.depth - 1) ++ [s.subproofs.length] := hid
    show id < (s.subproofs ++ [_]).length
    rw [List.length_append, List.length_singleton]
    rcases List.mem_append.mp hid' with hold | hnew
    · exact Nat.lt_succ_of_lt (hs id (List.mem_of_mem_take hold))
    · rw [List.mem_singleton.mp hnew]
      exact Nat.lt_succ_self _
  · exact hs id (List.mem_of_mem_take hid)

/-- Every path of a walk, the current one too, names subproofs that exist. -/
theorem Walk.path_lt {h : List Visit} {s : Scopes} (hw : Walk h s) :
    (∀ v ∈ h, ∀ id ∈ v.path, id < s.subproofs.length)
      ∧ ∀ id ∈ s.path, id < s.subproofs.length := by
  induction hw with
  | start => exact ⟨by simp, by simp [Scopes.empty]⟩
  | @next h s s' entry known hw henter ih =>
      have hcurrent := enter_path_lt henter ih.2
      rw [record_subproofs_length, record_path]
      refine ⟨fun v hv => ?_, hcurrent⟩
      rcases List.mem_append.mp hv with hold | hnew
      · intro id hid
        exact Nat.lt_of_lt_of_le (ih.1 v hold id hid) (enter_subproofs_length henter)
      · rw [List.mem_singleton.mp hnew]
        exact hcurrent

/-- Any part of an earlier path extends to the current one exactly if no line
since closed it. -/
theorem Walk.part_isPrefix_path_iff {h : List Visit} {s : Scopes} (hw : Walk h s) {i : Nat}
    {v : Visit} (hi : h[i]? = some v) {p : Path} (hp : p <+: v.path) :
    p <+: s.path ↔ ∀ w ∈ h.drop (i + 1), p.length ≤ w.entry.depth
      ∧ (w.entry.depth = p.length → w.entry.opens = false) := by
  induction hw with
  | start => exact absurd hi (by simp)
  | @next h s s' entry known hw henter ih =>
      rw [record_path]
      by_cases hlast : i < h.length
      · rw [List.getElem?_append_left hlast] at hi
        have hmem : v ∈ h := List.mem_of_getElem? hi
        have hlt : ∀ id ∈ p, id < s.subproofs.length := by
          intro id hid
          exact hw.path_lt.1 v hmem id (hp.mem hid)
        rw [isPrefix_enter_iff henter hlt, ih hi, List.drop_append_of_le_length (by omega)]
        constructor
        · rintro ⟨hold, hnew⟩ w hwmem
          rcases List.mem_append.mp hwmem with hwmem | hwmem
          · exact hold w hwmem
          · rw [List.mem_singleton.mp hwmem]
            exact hnew
        · intro hall
          exact ⟨fun w hwmem => hall w (List.mem_append_left _ hwmem),
            hall _ (List.mem_append_right _ (List.mem_singleton.mpr rfl))⟩
      · -- The line in question is the last one, and no line came since.
        have hbound := (List.getElem?_eq_some_iff.mp hi).1
        rw [List.length_append, List.length_singleton] at hbound
        have hieq : i = h.length := by omega
        rw [hieq, List.getElem?_concat_length, Option.some.injEq] at hi
        rw [← hi] at hp
        rw [hieq, List.drop_of_length_le (by simp)]
        exact ⟨fun _ w hwmem => absurd hwmem (by simp), fun _ => hp⟩

/-- An earlier path extends to the current one exactly if no line since closed
its place. -/
theorem Walk.isPrefix_path_iff {h : List Visit} {s : Scopes} (hw : Walk h s) {i : Nat}
    {v : Visit} (hi : h[i]? = some v) :
    v.path <+: s.path ↔ ∀ w ∈ h.drop (i + 1), v.entry.depth ≤ w.entry.depth
      ∧ (w.entry.depth = v.entry.depth → w.entry.opens = false) := by
  rw [hw.part_isPrefix_path_iff hi (List.prefix_refl _),
    hw.length_path v (List.mem_of_getElem? hi)]

/-- **One path extends another exactly if the earlier place lasts.** -/
theorem Walk.isPrefix_iff_lasts {h : List Visit} {s : Scopes} (hw : Walk h s) {i j : Nat}
    {v w : Visit} (hi : h[i]? = some v) (hj : h[j]? = some w) (hij : i ≤ j) :
    v.path <+: w.path ↔ Entry.Lasts (h.map Visit.entry) i j := by
  obtain ⟨s', hw', hlast⟩ := hw.take_path hj
  have hi' : (h.take (j + 1))[i]? = some v := by
    rw [List.getElem?_take_of_lt (by omega)]
    exact hi
  rw [← hlast, hw'.isPrefix_path_iff hi']
  unfold Entry.Lasts
  rw [List.getElem?_map, hi, ← List.map_take, ← List.map_drop]
  simp only [Option.map_some, Option.mem_some_iff, forall_eq', List.forall_mem_map]

/-- A nested subproof that was closed again does not end the one around it. -/
example : Entry.Lasts [⟨1, 1, none, true⟩, ⟨2, 2, none, true⟩, ⟨3, 1, none, false⟩] 0 2 := by
  decide

/-- A sibling does. -/
example : ¬ Entry.Lasts [⟨1, 1, none, true⟩, ⟨2, 1, none, true⟩] 0 1 := by decide

/-- **Every open subproof was started by a line of the walk**, on the path that
leads to it. -/
theorem Walk.exists_opener {h : List Visit} {s : Scopes} (hw : Walk h s) {p : Path}
    (hne : p ≠ []) (hp : p <+: s.path) : ∃ v ∈ h, v.entry.opens = true ∧ v.path = p := by
  induction hw with
  | start => exact absurd (List.prefix_nil.mp hp) hne
  | @next h s s' entry known hw henter ih =>
      rw [record_path] at hp
      have hkeep : p <+: s.path → ∃ v ∈ h ++ [⟨entry, known, s'.path⟩],
          v.entry.opens = true ∧ v.path = p := by
        intro hold
        obtain ⟨v, hv, hopens, hpath⟩ := ih hold
        exact ⟨v, List.mem_append_left _ hv, hopens, hpath⟩
      rcases enter_eq_ok henter with ⟨hopens, -, -, rfl⟩ | ⟨-, -, rfl⟩
      · have hp' : p <+: s.path.take (entry.depth - 1) ++ [s.subproofs.length] := hp
        rcases List.prefix_concat_iff.mp hp' with hself | hold
        · exact ⟨_, List.mem_append_right _ (List.mem_singleton.mpr rfl), hopens, hself.symm⟩
        · exact hkeep (hold.trans (List.take_prefix _ _))
      · exact hkeep (hp.trans (List.take_prefix _ _))

/-! ## §5. The subproofs of a walk. -/

/-- Along a path each subproof lies inside the one before it. -/
def Rooted (subproofs : List Subproof) (path : Path) : Prop :=
  ∀ k id, path[k]? = some id → ∃ subproof ∈ subproofs[id]?, subproof.parent = path.take k

/-- So a path is known from the subproof it ends in. -/
theorem Rooted.eq_of_getLast? {subproofs : List Subproof} {path : Path}
    (hr : Rooted subproofs path) {id : Nat} {subproof : Subproof}
    (hlast : path.getLast? = some id) (hid : subproofs[id]? = some subproof) :
    path = subproof.parent ++ [id] := by
  obtain ⟨front, rfl⟩ := List.getLast?_eq_some_iff.mp hlast
  obtain ⟨subproof', hid', hparent⟩ := hr front.length id (by simp)
  rw [Option.mem_def, hid, Option.some.injEq] at hid'
  rw [hid', hparent, List.take_left]

theorem Rooted.take {subproofs : List Subproof} {path : Path} (hr : Rooted subproofs path)
    (n : Nat) : Rooted subproofs (path.take n) := by
  intro k id hk
  have hkn : k < n := by
    have hbound := (List.getElem?_eq_some_iff.mp hk).1
    rw [List.length_take] at hbound
    omega
  rw [List.getElem?_take_of_lt hkn] at hk
  obtain ⟨subproof, hid, hparent⟩ := hr k id hk
  refine ⟨subproof, hid, ?_⟩
  rw [hparent, List.take_take, Nat.min_eq_left (Nat.le_of_lt hkn)]

/-- A new subproof may be put at the end of a path. -/
theorem Rooted.concat {subproofs : List Subproof} {path : Path} (hr : Rooted subproofs path)
    {subproof : Subproof} (hparent : subproof.parent = path) :
    Rooted (subproofs ++ [subproof]) (path ++ [subproofs.length]) := by
  intro k id hk
  by_cases hlast : k < path.length
  · rw [List.getElem?_append_left hlast] at hk
    obtain ⟨subproof', hid, hparent'⟩ := hr k id hk
    have hlt := (List.getElem?_eq_some_iff.mp hid).1
    refine ⟨subproof', by rw [List.getElem?_append_left hlt]; exact hid, ?_⟩
    rw [hparent', List.take_append_of_le_length (Nat.le_of_lt hlast)]
  · have hkeq : k = path.length := by
      have hbound := (List.getElem?_eq_some_iff.mp hk).1
      rw [List.length_append, List.length_singleton] at hbound
      omega
    rw [hkeq, List.getElem?_concat_length, Option.some.injEq] at hk
    refine ⟨subproof, by rw [← hk]; simp, ?_⟩
    rw [hparent, hkeq, List.take_left]

theorem enter_rooted {s s' : Scopes} {known : Nat → Option Formula} {entry : Entry}
    (h : s.enter known entry = (.ok (), s')) (hs : Rooted s.subproofs s.path) :
    Rooted s'.subproofs s'.path := by
  rcases enter_eq_ok h with ⟨-, -, -, rfl⟩ | ⟨-, -, rfl⟩
  · exact (hs.take (entry.depth - 1)).concat rfl
  · exact hs.take entry.depth

/-- Recording a line moves no subproof. -/
theorem record_rooted {s : Scopes} {path : Path} (hr : Rooted s.subproofs path) (number : Nat) :
    Rooted (s.record number).subproofs path := by
  intro k id hk
  obtain ⟨subproof, hid, hparent⟩ := hr k id hk
  rw [record_getElem?, Option.mem_def.mp hid]
  refine ⟨_, rfl, ?_⟩
  split <;> exact hparent

theorem Walk.rooted {h : List Visit} {s : Scopes} (hw : Walk h s) :
    Rooted s.subproofs s.path := by
  induction hw with
  | start => intro k id hk; exact absurd hk (by simp [Scopes.empty])
  | next hw henter ih => exact record_rooted (enter_rooted henter ih) _

/-- A name is fresh exactly if it occurs in no formula of the walk that can be
seen. -/
theorem Walk.isFreshAt_iff {h : List Visit} {s : Scopes} (hw : Walk h s)
    (hn : (h.map fun v => v.entry.number).Nodup) {known : Nat → Option Formula} {path : Path}
    {z : Name} :
    s.isFreshAt known path z = true ↔ ∀ w ∈ h, w.path <+: path →
      ∀ f ∈ known w.entry.number, f.occurs z = false := by
  unfold isFreshAt
  rw [List.all_eq_true, hw.places_eq]
  constructor
  · intro hall w hwmem hpath f hf
    have hthis := hall (w.entry.number, w.path)
      (List.mem_reverse.mpr (List.mem_map_of_mem hwmem))
    simpa [isVisibleFrom, hw.places_lookup hn hwmem, Option.mem_def.mp hf,
      List.isPrefixOf_iff_prefix.mpr hpath] using hthis
  · intro hall place hplace
    obtain ⟨w, hwmem, rfl⟩ := List.mem_map.mp (List.mem_reverse.mp hplace)
    by_cases hpath : w.path <+: path
    · cases hf : known w.entry.number with
      | none => simp [hf]
      | some f => simp [hf, hall w hwmem hpath f hf]
    · have hnot : w.path.isPrefixOf path = false := by
        rw [← Bool.not_eq_true, List.isPrefixOf_iff_prefix]
        exact hpath
      simp [isVisibleFrom, hw.places_lookup hn hwmem, hnot]

/-- Line `i` of a walk started the subproof with number `id`, and `subproof` is
what is remembered of it. -/
structure Opened (h : List Visit) (i : Nat) (v : Visit) (id : Nat) (subproof : Subproof) :
    Prop where
  visit : h[i]? = some v
  opens : v.entry.opens = true
  path : v.path = subproof.parent ++ [id]
  flag : subproof.flag = v.entry.flag
  assumes : subproof.assumes = v.entry.assumes
  /-- A fresh flag occurs in no line that could be seen from where the subproof
  was opened. -/
  fresh : subproof.flagFresh = true ↔ ∀ z ∈ v.entry.flag, ∀ w ∈ h.take i,
    w.path <+: subproof.parent → ∀ f ∈ v.known w.entry.number, f.occurs z = false
  /-- The last line directly inside is the last one on the path of the first. -/
  last : ∃ (m : Nat) (w : Visit), h[m]? = some w ∧ w.path = v.path
    ∧ subproof.lastDirect = some w.entry.number
    ∧ ∀ (k : Nat) (x : Visit), m < k → h[k]? = some x → x.path ≠ v.path

/-- One more line changes nothing about how a subproof was opened. -/
theorem Opened.fresh_append {h : List Visit} {i id : Nat} {v : Visit} {subproof : Subproof}
    (ho : Opened h i v id subproof) (w : Visit) :
    subproof.flagFresh = true ↔ ∀ z ∈ v.entry.flag, ∀ x ∈ (h ++ [w]).take i,
      x.path <+: subproof.parent → ∀ f ∈ v.known x.entry.number, f.occurs z = false := by
  have hi : i < h.length := (List.getElem?_eq_some_iff.mp ho.visit).1
  rw [List.take_append_of_le_length (Nat.le_of_lt hi)]
  exact ho.fresh

/-- A line on another path changes nothing about a subproof. -/
theorem Opened.append {h : List Visit} {i id : Nat} {v : Visit} {subproof : Subproof}
    (ho : Opened h i v id subproof) {w : Visit} (hne : w.path ≠ v.path) :
    Opened (h ++ [w]) i v id subproof := by
  refine ⟨getElem?_append_of_some ho.visit, ho.opens, ho.path, ho.flag, ho.assumes,
    ho.fresh_append w, ?_⟩
  obtain ⟨m, last, hm, hpath, hnumber, hafter⟩ := ho.last
  refine ⟨m, last, getElem?_append_of_some hm, hpath, hnumber, ?_⟩
  intro k x hk hx
  rcases getElem?_concat hx with hold | ⟨-, rfl⟩
  · exact hafter k x hk hold
  · exact hne

/-- A line on the path of the subproof becomes the last one directly inside. -/
theorem Opened.append_last {h : List Visit} {i id : Nat} {v : Visit} {subproof : Subproof}
    (ho : Opened h i v id subproof) {w : Visit} (hw : w.path = v.path) :
    Opened (h ++ [w]) i v id { subproof with lastDirect := some w.entry.number } := by
  refine ⟨getElem?_append_of_some ho.visit, ho.opens, ho.path, ho.flag, ho.assumes,
    ho.fresh_append w, ?_⟩
  refine ⟨h.length, w, List.getElem?_concat_length, hw, rfl, fun k x hk hx => ?_⟩
  have hbound := (List.getElem?_eq_some_iff.mp hx).1
  rw [List.length_append, List.length_singleton] at hbound
  omega

/-- Subproofs that exist stay as they are when a line is entered. -/
theorem enter_getElem? {s s' : Scopes} {known : Nat → Option Formula} {entry : Entry}
    (h : s.enter known entry = (.ok (), s')) {id : Nat} {subproof : Subproof}
    (hid : s.subproofs[id]? = some subproof) : s'.subproofs[id]? = some subproof := by
  rcases enter_eq_ok h with ⟨-, -, -, rfl⟩ | ⟨-, -, rfl⟩
  · show (s.subproofs ++ [_])[id]? = some subproof
    rw [List.getElem?_append_left (List.getElem?_eq_some_iff.mp hid).1]
    exact hid
  · exact hid

/-- When one more line is recorded, what is known of a subproof stays true. -/
theorem Opened.record {h : List Visit} {s : Scopes} {i id : Nat} {v : Visit}
    {subproof : Subproof} (ho : Opened h i v id subproof) (hr : Rooted s.subproofs s.path)
    (hid : s.subproofs[id]? = some subproof) (entry : Entry) (known : Nat → Option Formula) :
    ∃ subproof', (s.record entry.number).subproofs[id]? = some subproof'
      ∧ Opened (h ++ [⟨entry, known, s.path⟩]) i v id subproof' := by
  rw [record_getElem?, hid]
  refine ⟨_, rfl, ?_⟩
  split
  · next hlast =>
      -- The line stands directly inside, and so on the path of the first line.
      have hpath : s.path = v.path := by rw [hr.eq_of_getLast? hlast hid, ho.path]
      exact ho.append_last hpath
  · next hlast =>
      refine ho.append fun hpath => hlast ?_
      show (⟨entry, known, s.path⟩ : Visit).path.getLast? = some id
      rw [hpath, ho.path, List.getLast?_concat]

/-- A line that starts a subproof is remembered with it. -/
theorem Opened.concat {h : List Visit} {s : Scopes} (hw : Walk h s)
    (hn : (h.map fun v => v.entry.number).Nodup) {entry : Entry} (hopens : entry.opens = true)
    (known : Nat → Option Formula) (parent : Path) :
    ∃ subproof, ((s.openAt known parent entry).record entry.number).subproofs[s.subproofs.length]?
        = some subproof
      ∧ Opened (h ++ [⟨entry, known, parent ++ [s.subproofs.length]⟩]) h.length
          ⟨entry, known, parent ++ [s.subproofs.length]⟩ s.subproofs.length subproof := by
  have hnew : (s.openAt known parent entry).subproofs[s.subproofs.length]?
      = some ⟨entry.flag, entry.assumes, entry.flag.all (s.isFreshAt known parent), parent,
        none⟩ := by
    show (s.subproofs ++ [_])[s.subproofs.length]? = _
    rw [List.getElem?_concat_length]
  have hlast : (s.openAt known parent entry).path.getLast? = some s.subproofs.length := by
    show (parent ++ [s.subproofs.length]).getLast? = _
    rw [List.getLast?_concat]
  rw [record_getElem?, hnew, Option.map_some, if_pos hlast]
  refine ⟨_, rfl, by simp, hopens, rfl, rfl, rfl, ?_, ?_⟩
  · rw [List.take_left, Option.all_eq_true]
    simp only [hw.isFreshAt_iff hn]
    rfl
  · refine ⟨h.length, _, by simp, rfl, rfl, fun k x hk hx => ?_⟩
    have hbound := (List.getElem?_eq_some_iff.mp hx).1
    rw [List.length_append, List.length_singleton] at hbound
    omega

/-- **Every subproof on record was started by a line of the walk.** -/
theorem Walk.exists_opened {h : List Visit} {s : Scopes} (hw : Walk h s)
    (hn : (h.map fun v => v.entry.number).Nodup) {number id : Nat}
    (hmem : (number, id) ∈ s.openedBy) :
    ∃ i v subproof, s.subproofs[id]? = some subproof ∧ v.entry.number = number
      ∧ Opened h i v id subproof := by
  induction hw with
  | start => exact absurd hmem (by simp [Scopes.empty])
  | @next h s s' entry known hw henter ih =>
      rw [List.map_append, List.nodup_append] at hn
      -- What was on record before the line stays there and is still true.
      have hkeep : (number, id) ∈ s.openedBy → ∃ i v subproof,
          (s'.record entry.number).subproofs[id]? = some subproof ∧ v.entry.number = number
            ∧ Opened (h ++ [⟨entry, known, s'.path⟩]) i v id subproof := by
        intro hold
        obtain ⟨i, v, subproof, hid, hnumber, ho⟩ := ih hn.1 hold
        obtain ⟨subproof', hid', ho'⟩ := ho.record (enter_rooted henter hw.rooted)
          (enter_getElem? henter hid) entry known
        exact ⟨i, v, subproof', hid', hnumber, ho'⟩
      rcases enter_eq_ok henter with ⟨hopens, -, -, rfl⟩ | ⟨-, -, rfl⟩
      · have hmem' : (number, id) ∈ (entry.number, s.subproofs.length) :: s.openedBy := hmem
        rcases List.mem_cons.mp hmem' with hnew | hold
        · obtain ⟨rfl, rfl⟩ := Prod.mk.inj hnew
          obtain ⟨subproof, hid, ho⟩ := Opened.concat hw hn.1 hopens known
            (s.path.take (entry.depth - 1))
          exact ⟨h.length, _, subproof, hid, rfl, ho⟩
        · exact hkeep hold
      · exact hkeep hmem

/-! ## §6. What can be cited after entering a line. -/

/-- **A visible line is a line of the walk** whose path the new one extends. -/
theorem Walk.exists_of_isVisible {h : List Visit} {s s' : Scopes} (hw : Walk h s)
    {known : Nat → Option Formula} {entry : Entry} (henter : s.enter known entry = (.ok (), s'))
    {number : Nat} (hv : s'.isVisible number = true) :
    ∃ (i : Nat) (v : Visit), h[i]? = some v ∧ v.entry.number = number ∧ v.path <+: s'.path := by
  unfold isVisible isVisibleFrom at hv
  obtain ⟨path, hlookup, hpre⟩ := (Option.any_eq_true _ _).mp hv
  rw [enter_places henter, hw.places_eq] at hlookup
  obtain ⟨v, hmem, heq⟩ := List.mem_map.mp (List.mem_reverse.mp (mem_of_lookup hlookup))
  obtain ⟨rfl, rfl⟩ := Prod.mk.inj heq
  obtain ⟨i, hi⟩ := List.mem_iff_getElem?.mp hmem
  exact ⟨i, v, hi, rfl, List.isPrefixOf_iff_prefix.mp hpre⟩

/-- **A subproof can be cited** exactly if it is on record, closed, inside an
open one, and ends with the line it is said to end with. -/
theorem closed?_eq_some_iff {s : Scopes} {first last : Nat} {subproof : Subproof} :
    s.closed? first last = some subproof ↔ ∃ id, s.openedBy.lookup first = some id
      ∧ s.subproofs[id]? = some subproof ∧ id ∉ s.path ∧ subproof.parent <+: s.path
      ∧ subproof.lastDirect = some last := by
  unfold closed?
  cases hlookup : s.openedBy.lookup first with
  | none => simp
  | some id =>
      simp only [Option.some.injEq, exists_eq_left']
      cases hid : s.subproofs[id]? with
      | none => simp
      | some subproof' =>
          simp only [Option.some.injEq]
          constructor
          · intro hc
            split at hc
            · next hcond =>
                simp only [Bool.and_eq_true, Bool.not_eq_true', decide_eq_true_eq] at hcond
                obtain ⟨⟨hclosed, hparent⟩, hlast⟩ := hcond
                rw [← Option.some.inj hc]
                exact ⟨rfl, by simpa using hclosed, List.isPrefixOf_iff_prefix.mp hparent, hlast⟩
            · exact absurd hc (by simp)
          · rintro ⟨rfl, hclosed, hparent, hlast⟩
            simp [hclosed, List.isPrefixOf_iff_prefix.mpr hparent, hlast]

/-- A subproof outside the place of an entered line was on record before. -/
theorem mem_openedBy_of_enter {s s' : Scopes} {known : Nat → Option Formula} {entry : Entry}
    (h : s.enter known entry = (.ok (), s')) {number id : Nat}
    (hmem : (number, id) ∈ s'.openedBy) (hid : id ∉ s'.path) : (number, id) ∈ s.openedBy := by
  rcases enter_eq_ok h with ⟨-, -, -, rfl⟩ | ⟨-, -, rfl⟩
  · have hmem' : (number, id) ∈ (entry.number, s.subproofs.length) :: s.openedBy := hmem
    rcases List.mem_cons.mp hmem' with hnew | hold
    · have hself : id ∈ s.path.take (entry.depth - 1) ++ [s.subproofs.length] := by
        rw [(Prod.mk.inj hnew).2]
        simp
      exact absurd hself hid
    · exact hold
  · exact hmem

/-- **A closed subproof was started by a line of the walk**, ended with one on
the same path, and lies in a subproof that is still open.  The entered line
does not stand inside it. -/
theorem Walk.exists_of_closed? {h : List Visit} {s s' : Scopes} (hw : Walk h s)
    (hn : (h.map fun v => v.entry.number).Nodup) {known : Nat → Option Formula} {entry : Entry}
    (henter : s.enter known entry = (.ok (), s')) {first last : Nat} {subproof : Subproof}
    (hc : s'.closed? first last = some subproof) :
    ∃ i v id, Opened h i v id subproof ∧ v.entry.number = first
      ∧ subproof.lastDirect = some last ∧ subproof.parent <+: s'.path ∧ ¬ v.path <+: s'.path := by
  obtain ⟨id, hlookup, hid, hclosed, hparent, hlast⟩ := closed?_eq_some_iff.mp hc
  have hold := mem_openedBy_of_enter henter (mem_of_lookup hlookup) hclosed
  obtain ⟨i, v, subproof', hid', hnumber, ho⟩ := hw.exists_opened hn hold
  have hsame : subproof' = subproof := by
    rw [enter_getElem? henter hid', Option.some.injEq] at hid
    exact hid
  rw [hsame] at ho
  refine ⟨i, v, id, ho, hnumber, hlast, hparent, fun hinside => hclosed (hinside.mem ?_)⟩
  rw [ho.path]
  simp

end Scopes

end NaturalDeduction
