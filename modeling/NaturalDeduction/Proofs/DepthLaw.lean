/-
  NaturalDeduction.Proofs.DepthLaw
  ────────────────────────────────
  **WHAT CAN BE CITED, READ OFF THE DEPTHS.**

  The subproofs keep paths of allocation numbers, a table of first lines, and
  the last line directly inside each subproof.  None of this shows in what can
  be cited: after a walk, a look at the depths of the lines and at which of
  them start a subproof is enough.  Main statements:

    • `Walk.isVisible_iff_lasts` — a line can be seen exactly as long as its
      place lasts,
    • `Walk.closed?_iff_closedBox` — a subproof can be cited exactly if it was
      closed, the scope around it was not, and it is cited from its first to
      its last direct line.
-/
import NaturalDeduction.Proofs.Walk

namespace NaturalDeduction

/-! ## §1. Closed subproofs by depth. -/

/-- Does line `l` close the place of an earlier line `e`? -/
def Entry.ClosedBy (e l : Entry) : Prop :=
  l.depth < e.depth ∨ (l.depth = e.depth ∧ l.opens = true)

/-- Does line `l` close the scope around the subproof that an earlier line `e`
starts? -/
def Entry.LeftBy (e l : Entry) : Prop :=
  l.depth + 1 < e.depth ∨ (l.depth + 1 = e.depth ∧ l.opens = true)

instance (e l : Entry) : Decidable (e.ClosedBy l) :=
  inferInstanceAs (Decidable (_ ∨ _))

instance (e l : Entry) : Decidable (e.LeftBy l) :=
  inferInstanceAs (Decidable (_ ∨ _))

/-- **A closed subproof among the lines**, the last of which is the current
one: line `i` starts it, line `m` is the last directly inside, and line `c` is
the first to close it. -/
structure Entry.ClosedBox (entries : List Entry) (i m c : Nat) (first last : Entry) : Prop where
  first_eq : entries[i]? = some first
  opens : first.opens = true
  start_lt : i < c
  closed : ∃ l, entries[c]? = some l ∧ first.ClosedBy l
  open_before : ∀ k l, i < k → k < c → entries[k]? = some l → ¬ first.ClosedBy l
  /-- The scope around it is not closed up to the current line. -/
  reachable : ∀ k l, i < k → entries[k]? = some l → ¬ first.LeftBy l
  last_eq : entries[m]? = some last
  start_le : i ≤ m
  last_lt : m < c
  last_depth : last.depth = first.depth
  /-- No line of that depth comes between the last direct line and the end. -/
  deeper_after : ∀ k l, m < k → k < c → entries[k]? = some l → l.depth ≠ first.depth

namespace Entry

variable {entries : List Entry} {i j : Nat} {e : Entry}

theorem not_closedBy_iff {l : Entry} :
    ¬ e.ClosedBy l ↔ e.depth ≤ l.depth ∧ (l.depth = e.depth → l.opens = false) := by
  unfold ClosedBy
  cases l.opens <;> simp

/-- A place lasts until a line closes it. -/
theorem lasts_iff_not_closedBy (hi : entries[i]? = some e) :
    Lasts entries i j ↔ ∀ k l, i < k → k ≤ j → entries[k]? = some l → ¬ e.ClosedBy l := by
  rw [lasts_iff hi]
  simp only [not_closedBy_iff]

/-- A place that does not last is closed by a first line. -/
theorem exists_first_closing (hi : entries[i]? = some e) (h : ¬ Lasts entries i j) :
    ∃ c l, i < c ∧ c ≤ j ∧ entries[c]? = some l ∧ e.ClosedBy l ∧ Lasts entries i (c - 1) := by
  induction j with
  | zero =>
      exfalso
      apply h
      rw [lasts_iff_not_closedBy hi]
      intro k l hik hk
      omega
  | succ j ih =>
      by_cases hlasts : Lasts entries i j
      · -- It lasts up to the line before, so the line itself closes it.
        rw [lasts_iff_not_closedBy hi] at h hlasts
        push Not at h
        obtain ⟨c, l, hic, hcj, hc, hclosed⟩ := h
        have hceq : c = j + 1 := by
          by_contra hne
          exact hlasts c l hic (by omega) hc hclosed
        refine ⟨c, l, hic, hcj, hc, hclosed, ?_⟩
        rw [hceq, Nat.add_sub_cancel, lasts_iff_not_closedBy hi]
        exact hlasts
      · obtain ⟨c, l, hic, hcj, hrest⟩ := ih hlasts
        exact ⟨c, l, hic, by omega, hrest⟩

end Entry

namespace Scopes

variable {h : List Visit} {s s' : Scopes} {known : Nat → Option Formula} {entry : Entry}

/-! ## §2. Visible lines. -/

/-- The lines of a walk and the one that was entered after them. -/
def linesUpTo (h : List Visit) (entry : Entry) : List Entry := h.map Visit.entry ++ [entry]

theorem linesUpTo_getElem? {i : Nat} {v : Visit} (hi : h[i]? = some v) :
    (linesUpTo h entry)[i]? = some v.entry := by
  refine getElem?_append_of_some ?_
  rw [List.getElem?_map, hi, Option.map_some]

/-- The path of an earlier line extends to the entered one exactly if its place
lasts until then. -/
theorem Walk.isPrefix_enter_iff_lasts (hw : Walk h s)
    (henter : s.enter known entry = (.ok (), s')) {i : Nat} {v : Visit} (hi : h[i]? = some v) :
    v.path <+: s'.path ↔ Entry.Lasts (linesUpTo h entry) i h.length := by
  have hlasts := (Walk.next hw henter).isPrefix_iff_lasts (getElem?_append_of_some hi)
    (List.getElem?_concat_length (l := h))
    (Nat.le_of_lt (List.getElem?_eq_some_iff.mp hi).1)
  rwa [List.map_append] at hlasts

/-- **A line can be seen exactly as long as its place lasts**: until a line at
a lesser depth comes, or a line that starts a subproof at the same depth.  A
number that was not recorded cannot be seen. -/
theorem Walk.isVisible_iff_lasts (hw : Walk h s) (hn : (h.map fun v => v.entry.number).Nodup)
    (henter : s.enter known entry = (.ok (), s')) :
    (∀ i v, h[i]? = some v → (s'.isVisible v.entry.number = true
        ↔ Entry.Lasts (linesUpTo h entry) i h.length))
      ∧ ∀ number, (∀ v ∈ h, v.entry.number ≠ number) → s'.isVisible number = false := by
  constructor
  · intro i v hi
    have hlookup : s'.places.lookup v.entry.number = some v.path := by
      rw [enter_places henter]
      exact hw.places_lookup hn (List.mem_of_getElem? hi)
    unfold isVisible isVisibleFrom
    rw [hlookup, Option.any_some, List.isPrefixOf_iff_prefix]
    exact hw.isPrefix_enter_iff_lasts henter hi
  · intro number hnone
    by_contra hvisible
    obtain ⟨i, v, hi, hnumber, -⟩ :=
      hw.exists_of_isVisible henter (Bool.not_eq_false _ ▸ hvisible)
    exact hnone v (List.mem_of_getElem? hi) hnumber

/-- A nested subproof that was closed hides its lines and not those around
it. -/
theorem isVisible_iff_lasts_nested :
    ∃ s s' : Scopes, Walk [⟨⟨1, 1, none, true⟩, fun _ => none, [0]⟩,
        ⟨⟨2, 2, none, true⟩, fun _ => none, [0, 1]⟩] s
      ∧ s.enter (fun _ => none) ⟨3, 1, none, false⟩ = (.ok (), s')
      ∧ s'.isVisible 1 = true ∧ s'.isVisible 2 = false ∧ s'.isVisible 3 = false := by
  have hfirst := Walk.next .start (show Scopes.empty.enter (fun _ => none) ⟨1, 1, none, true⟩
    = (.ok (), _) from rfl)
  have hsecond := Walk.next hfirst (show Scopes.enter _ (fun _ => none) ⟨2, 2, none, true⟩
    = (.ok (), _) from rfl)
  obtain ⟨hseen, hunknown⟩ := hsecond.isVisible_iff_lasts (by decide)
    (show Scopes.enter _ (fun _ => none) ⟨3, 1, none, false⟩ = (.ok (), _) from rfl)
  refine ⟨_, _, hsecond, rfl, (hseen 0 _ rfl).mpr (by decide), ?_, hunknown 3 (by decide)⟩
  exact Bool.eq_false_iff.mpr fun hvisible => absurd ((hseen 1 _ rfl).mp hvisible) (by decide)

/-! ## §3. What is on record of a subproof. -/

/-- An entered line is found by its own number only. -/
theorem enter_openedBy_lookup (henter : s.enter known entry = (.ok (), s')) {number : Nat}
    (hne : number ≠ entry.number) : s'.openedBy.lookup number = s.openedBy.lookup number := by
  rcases enter_eq_ok henter with ⟨-, -, -, rfl⟩ | ⟨-, -, rfl⟩
  · show ((entry.number, s.subproofs.length) :: s.openedBy).lookup number = _
    rw [List.lookup_cons, beq_false_of_ne hne]
  · rfl

/-- A line that starts a subproof is on record as its first. -/
theorem Walk.exists_lookup_of_opens (hw : Walk h s)
    (hn : (h.map fun v => v.entry.number).Nodup) {v : Visit} (hv : v ∈ h)
    (hopens : v.entry.opens = true) : ∃ id, s.openedBy.lookup v.entry.number = some id := by
  induction hw with
  | start => exact absurd hv (by simp)
  | @next h s s' entry known hw henter ih =>
      rw [List.map_append, List.nodup_append] at hn
      show ∃ id, s'.openedBy.lookup v.entry.number = some id
      rcases List.mem_append.mp hv with hold | hnew
      · have hne : v.entry.number ≠ entry.number :=
          hn.2.2 _ (List.mem_map_of_mem hold) _ (List.mem_singleton.mpr rfl)
        rw [enter_openedBy_lookup henter hne]
        exact ih hn.1 hold
      · rw [List.mem_singleton.mp hnew] at hopens ⊢
        rcases enter_eq_ok henter with ⟨-, -, -, rfl⟩ | ⟨hnot, -, -⟩
        · refine ⟨s.subproofs.length, ?_⟩
          show ((entry.number, s.subproofs.length) :: s.openedBy).lookup entry.number = _
          rw [List.lookup_cons, beq_self_eq_true]
        · rw [hnot] at hopens
          exact Bool.noConfusion hopens

/-- **Every line that starts a subproof is on record with it.** -/
theorem Walk.exists_opened_of_opens (hw : Walk h s)
    (hn : (h.map fun v => v.entry.number).Nodup) {i : Nat} {v : Visit} (hi : h[i]? = some v)
    (hopens : v.entry.opens = true) :
    ∃ id subproof, s.openedBy.lookup v.entry.number = some id
      ∧ s.subproofs[id]? = some subproof ∧ Opened h i v id subproof := by
  obtain ⟨id, hlookup⟩ := hw.exists_lookup_of_opens hn (List.mem_of_getElem? hi) hopens
  obtain ⟨i', v', subproof, hid, hnumber, ho⟩ := hw.exists_opened hn (mem_of_lookup hlookup)
  obtain rfl := index_eq_of_number hn hi ho.visit hnumber.symm
  obtain rfl : v = v' := Option.some.inj (hi.symm.trans ho.visit)
  exact ⟨id, subproof, hlookup, hid, ho⟩

/-! ## §4. Closed subproofs. -/

/-- A subproof is open at a place exactly if the path there goes through it. -/
theorem Rooted.mem_iff {subproofs : List Subproof} {path : Path} (hr : Rooted subproofs path)
    {id : Nat} {subproof : Subproof} (hid : subproofs[id]? = some subproof) :
    id ∈ path ↔ subproof.parent ++ [id] <+: path := by
  constructor
  · intro hmem
    obtain ⟨k, hk⟩ := List.mem_iff_getElem?.mp hmem
    obtain ⟨subproof', hid', hparent⟩ := hr k id hk
    rw [Option.mem_def, hid, Option.some.injEq] at hid'
    have htake : path.take (k + 1) = subproof.parent ++ [id] := by
      rw [List.take_add_one, hk, hid', hparent]
      rfl
    rw [← htake]
    exact List.take_prefix _ _
  · intro hpre
    exact hpre.mem (by simp)

/-- One recorded path extends another exactly if the earlier place lasts. -/
theorem Walk.isPrefix_iff_lasts_upTo (hw : Walk h s)
    (henter : s.enter known entry = (.ok (), s')) {i k : Nat} {v w : Visit}
    (hi : h[i]? = some v) (hk : h[k]? = some w) (hik : i ≤ k) :
    v.path <+: w.path ↔ Entry.Lasts (linesUpTo h entry) i k := by
  have hlasts := (Walk.next hw henter).isPrefix_iff_lasts (getElem?_append_of_some hi)
    (getElem?_append_of_some hk) hik
  rwa [List.map_append] at hlasts

/-- **The lines directly inside a subproof**: those of its depth, from its
first line on as long as its place lasts. -/
theorem Walk.path_eq_iff (hw : Walk h s) (henter : s.enter known entry = (.ok (), s'))
    {i k : Nat} {v w : Visit} (hi : h[i]? = some v) (hk : h[k]? = some w)
    (hopens : v.entry.opens = true) :
    w.path = v.path ↔ i ≤ k ∧ Entry.Lasts (linesUpTo h entry) i k
      ∧ w.entry.depth = v.entry.depth := by
  have hdepthv := hw.length_path v (List.mem_of_getElem? hi)
  have hdepthw := hw.length_path w (List.mem_of_getElem? hk)
  constructor
  · intro hpath
    have hdepth : w.entry.depth = v.entry.depth := by rw [← hdepthw, ← hdepthv, hpath]
    have hik : i ≤ k := by
      by_contra hlt
      -- An earlier line on this path would have been closed by the first line.
      have hlasts := (hw.isPrefix_iff_lasts_upTo henter hk hi (by omega)).mp
        (hpath ▸ List.prefix_refl _)
      rw [Entry.lasts_iff (linesUpTo_getElem? hk)] at hlasts
      have hclosed := (hlasts i v.entry (by omega) (Nat.le_refl i) (linesUpTo_getElem? hi)).2
      rw [hclosed hdepth.symm] at hopens
      exact Bool.noConfusion hopens
    have hpre : v.path <+: w.path := hpath ▸ List.prefix_refl _
    exact ⟨hik, (hw.isPrefix_iff_lasts_upTo henter hi hk hik).mp hpre, hdepth⟩
  · rintro ⟨hik, hlasts, hdepth⟩
    have hpre := (hw.isPrefix_iff_lasts_upTo henter hi hk hik).mpr hlasts
    exact (hpre.eq_of_length (by rw [hdepthv, hdepthw, hdepth])).symm

/-- The scope around a subproof is open exactly if no line has left it. -/
theorem Opened.parent_isPrefix_iff {i id : Nat} {v : Visit} {subproof : Subproof}
    (ho : Opened h i v id subproof) (hw : Walk h s)
    (henter : s.enter known entry = (.ok (), s')) :
    subproof.parent <+: s'.path
      ↔ ∀ k l, i < k → (linesUpTo h entry)[k]? = some l → ¬ v.entry.LeftBy l := by
  have hpart : subproof.parent <+: v.path := ho.path ▸ List.prefix_append _ _
  have hdepth : subproof.parent.length + 1 = v.entry.depth := by
    rw [← hw.length_path v (List.mem_of_getElem? ho.visit), ho.path, List.length_append,
      List.length_singleton]
  have hlines : (h ++ [(⟨entry, known, s'.path⟩ : Visit)]).map Visit.entry
      = linesUpTo h entry := List.map_append
  have hiff := (Walk.next hw henter).part_isPrefix_path_iff
    (getElem?_append_of_some ho.visit) hpart
  rw [record_path] at hiff
  rw [hiff, ← hlines]
  unfold Entry.LeftBy
  constructor
  · intro hall k l hik hk
    rw [List.getElem?_map, Option.map_eq_some_iff] at hk
    obtain ⟨w, hw', rfl⟩ := hk
    have hmem : w ∈ (h ++ [(⟨entry, known, s'.path⟩ : Visit)]).drop (i + 1) := by
      refine List.mem_iff_getElem?.mpr ⟨k - (i + 1), ?_⟩
      rw [List.getElem?_drop, show i + 1 + (k - (i + 1)) = k from by omega]
      exact hw'
    obtain ⟨hdeep, hsame⟩ := hall w hmem
    rintro (hless | ⟨hequal, hopens⟩)
    · omega
    · rw [hsame (by omega)] at hopens
      exact Bool.noConfusion hopens
  · intro hall w hwmem
    obtain ⟨n, hn⟩ := List.mem_iff_getElem?.mp hwmem
    rw [List.getElem?_drop] at hn
    have hnot := hall (i + 1 + n) w.entry (by omega) (by rw [List.getElem?_map, hn]; rfl)
    push Not at hnot
    refine ⟨by omega, fun hequal => ?_⟩
    have hclosed := hnot.2 (by omega)
    simpa using hclosed

/-- A closed subproof, by paths, is one by depths. -/
theorem Opened.closedBox {i id last : Nat} {v : Visit} {subproof : Subproof}
    (ho : Opened h i v id subproof) (hw : Walk h s)
    (henter : s.enter known entry = (.ok (), s')) (hclosed : ¬ v.path <+: s'.path)
    (hparent : subproof.parent <+: s'.path) (hlast : subproof.lastDirect = some last) :
    ∃ m c w, Entry.ClosedBox (linesUpTo h entry) i m c v.entry w ∧ w.number = last := by
  have hi := ho.visit
  have hopens := ho.opens
  have hfirst : (linesUpTo h entry)[i]? = some v.entry := linesUpTo_getElem? hi
  rw [hw.isPrefix_enter_iff_lasts henter hi] at hclosed
  obtain ⟨c, l, hic, hcj, hc, hby, hbefore⟩ := Entry.exists_first_closing hfirst hclosed
  obtain ⟨m, w, hm, hpath, hnumber, hafter⟩ := ho.last
  obtain ⟨him, hlasts, hdepth⟩ := (hw.path_eq_iff henter hi hm hopens).mp hpath
  have hbefore' := (Entry.lasts_iff_not_closedBy hfirst).mp hbefore
  have hmc : m < c := by
    by_contra hge
    exact (Entry.lasts_iff_not_closedBy hfirst).mp hlasts c l hic (by omega) hc hby
  refine ⟨m, c, w.entry, ⟨hfirst, hopens, hic, ⟨l, hc, hby⟩, ?_, ?_, linesUpTo_getElem? hm, him,
    hmc, hdepth, ?_⟩, ?_⟩
  · intro k l' hik hkc
    exact hbefore' k l' hik (by omega)
  · exact (ho.parent_isPrefix_iff hw henter).mp hparent
  · intro k l' hmk hkc hk hsame
    -- Such a line would stand on the path of the subproof, after its last one.
    have hkh : k < h.length := by omega
    have hx : h[k]? = some (h[k]) := List.getElem?_eq_getElem hkh
    rw [linesUpTo_getElem? hx, Option.some.injEq] at hk
    have hlasts' : Entry.Lasts (linesUpTo h entry) i k := by
      rw [Entry.lasts_iff_not_closedBy hfirst]
      intro k' l'' hik' hk'
      exact hbefore' k' l'' hik' (by omega)
    refine hafter k _ hmk hx ((hw.path_eq_iff henter hi hx hopens).mpr ⟨by omega, hlasts', ?_⟩)
    rw [hk, hsame]
  · rw [hnumber, Option.some.injEq] at hlast
    exact hlast

/-- A closed subproof by depths is one by paths, and ends with its last direct
line. -/
theorem Opened.of_closedBox {i m c id : Nat} {v w : Visit} {subproof : Subproof}
    (ho : Opened h i v id subproof) (hw : Walk h s)
    (henter : s.enter known entry = (.ok (), s')) (hm : h[m]? = some w)
    (hbox : Entry.ClosedBox (linesUpTo h entry) i m c v.entry w.entry) :
    ¬ v.path <+: s'.path ∧ subproof.parent <+: s'.path
      ∧ subproof.lastDirect = some w.entry.number := by
  have hi := ho.visit
  have hfirst : (linesUpTo h entry)[i]? = some v.entry := linesUpTo_getElem? hi
  obtain ⟨l, hc, hby⟩ := hbox.closed
  have hcj : c ≤ h.length := by
    have hbound := (List.getElem?_eq_some_iff.mp hc).1
    rw [linesUpTo, List.length_append, List.length_map, List.length_singleton] at hbound
    omega
  have hstart := hbox.start_lt
  have hmlt := hbox.last_lt
  refine ⟨?_, (ho.parent_isPrefix_iff hw henter).mpr hbox.reachable, ?_⟩
  · rw [hw.isPrefix_enter_iff_lasts henter hi, Entry.lasts_iff_not_closedBy hfirst]
    intro hnone
    exact hnone c l hstart hcj hc hby
  · obtain ⟨m', w', hm', hpath', hnumber, hafter⟩ := ho.last
    obtain ⟨him', hlasts', hdepth'⟩ := (hw.path_eq_iff henter hi hm' hbox.opens).mp hpath'
    have hlasts : Entry.Lasts (linesUpTo h entry) i m := by
      rw [Entry.lasts_iff_not_closedBy hfirst]
      intro k l' hik hkm
      exact hbox.open_before k l' hik (by omega)
    have hpath : w.path = v.path :=
      (hw.path_eq_iff henter hi hm hbox.opens).mpr ⟨hbox.start_le, hlasts, hbox.last_depth⟩
    -- The last line on the path is the last of this depth before the closing one.
    have hm'c : m' < c := by
      by_contra hge
      exact (Entry.lasts_iff_not_closedBy hfirst).mp hlasts' c l hstart (by omega) hc hby
    have hsame : m' = m := by
      rcases Nat.lt_trichotomy m' m with hlt | heq | hgt
      · exact absurd hpath (hafter m w hlt hm)
      · exact heq
      · exact absurd hdepth' (hbox.deeper_after m' _ hgt hm'c (linesUpTo_getElem? hm'))
    rw [hsame, hm, Option.some.injEq] at hm'
    rw [hnumber, hm']

/-- A flag is fresh exactly if it occurs in no line that could be seen from the
first line. -/
theorem Opened.fresh_iff_lasts {i id : Nat} {v : Visit} {subproof : Subproof}
    (ho : Opened h i v id subproof) (hw : Walk h s)
    (henter : s.enter known entry = (.ok (), s')) {formula : Nat → Formula}
    (hknown : ∀ w ∈ h.take i, v.known w.entry.number = some (formula w.entry.number)) :
    subproof.flagFresh = true ↔ ∀ z ∈ v.entry.flag, ∀ k l, k < i →
      (linesUpTo h entry)[k]? = some l → Entry.Lasts (linesUpTo h entry) k i →
      (formula l.number).occurs z = false := by
  have hi := ho.visit
  have hlt := (List.getElem?_eq_some_iff.mp hi).1
  -- From the first line one sees what could be seen from where it was opened.
  have hseen : ∀ {k : Nat} {w : Visit}, k < i → h[k]? = some w →
      (w.path <+: subproof.parent ↔ Entry.Lasts (linesUpTo h entry) k i) := by
    intro k w hki hk
    rw [← hw.isPrefix_iff_lasts_upTo henter hk hi (Nat.le_of_lt hki), ho.path,
      List.prefix_concat_iff, ← ho.path]
    constructor
    · exact Or.inr
    · rintro (hself | hpre)
      · have hik := ((hw.path_eq_iff henter hi hk ho.opens).mp hself).1
        omega
      · exact hpre
  rw [ho.fresh]
  constructor
  · intro hfresh z hz k l hki hl hlasts
    have hk : h[k]? = some (h[k]) := List.getElem?_eq_getElem (by omega)
    rw [linesUpTo_getElem? hk, Option.some.injEq] at hl
    have hmem : h[k] ∈ h.take i :=
      List.mem_iff_getElem?.mpr ⟨k, by rw [List.getElem?_take_of_lt hki]; exact hk⟩
    rw [← hl]
    exact hfresh z hz _ hmem ((hseen hki hk).mpr hlasts) _ (hknown _ hmem)
  · intro hfresh z hz w hwmem hpath f hf
    obtain ⟨k, hk⟩ := List.mem_iff_getElem?.mp hwmem
    have hki := (List.getElem?_eq_some_iff.mp hk).1
    rw [List.length_take] at hki
    rw [List.getElem?_take_of_lt (by omega)] at hk
    rw [Option.mem_def, hknown w hwmem, Option.some.injEq] at hf
    rw [← hf]
    exact hfresh z hz k w.entry (by omega) (linesUpTo_getElem? hk)
      ((hseen (by omega) hk).mp hpath)

/-- A closed subproof by depths can be cited. -/
theorem Walk.exists_closed?_of_closedBox (hw : Walk h s)
    (henter : s.enter known entry = (.ok (), s'))
    (hn : ((linesUpTo h entry).map Entry.number).Nodup) {i m c : Nat} {e l : Entry}
    (hbox : Entry.ClosedBox (linesUpTo h entry) i m c e l) :
    ∃ subproof, s'.closed? e.number l.number = some subproof := by
  have hc : c ≤ h.length := by
    obtain ⟨_, hc, -⟩ := hbox.closed
    have hbound := (List.getElem?_eq_some_iff.mp hc).1
    rw [linesUpTo, List.length_append, List.length_map, List.length_singleton] at hbound
    omega
  -- The first and the last line stand before the entered one.
  have hearlier : ∀ {k : Nat} {x : Entry}, k < c → (linesUpTo h entry)[k]? = some x →
      ∃ v, h[k]? = some v ∧ v.entry = x := by
    intro k x hk hx
    have hv : h[k]? = some (h[k]) := List.getElem?_eq_getElem (by omega)
    rw [linesUpTo_getElem? hv, Option.some.injEq] at hx
    exact ⟨_, hv, hx⟩
  obtain ⟨v, hi, rfl⟩ := hearlier hbox.start_lt hbox.first_eq
  obtain ⟨w, hm, rfl⟩ := hearlier hbox.last_lt hbox.last_eq
  rw [linesUpTo, List.map_append, List.nodup_append, List.map_map] at hn
  obtain ⟨id, subproof, hlookup, hid, ho⟩ := hw.exists_opened_of_opens hn.1 hi hbox.opens
  obtain ⟨hclosed, hparent, hlast⟩ := ho.of_closedBox hw henter hm hbox
  have hne : v.entry.number ≠ entry.number :=
    hn.2.2 _ (List.mem_map_of_mem (List.mem_of_getElem? hi)) _ (List.mem_singleton.mpr rfl)
  have hid' := enter_getElem? henter hid
  refine ⟨subproof, closed?_eq_some_iff.mpr ⟨id, ?_, hid', ?_, hparent, hlast⟩⟩
  · rw [enter_openedBy_lookup henter hne, hlookup]
  · rwa [(enter_rooted henter hw.rooted).mem_iff hid', ← ho.path]

/-- **A subproof can be cited exactly as the depths tell**: from the line that
started it to the last line directly inside, once it was closed and as long as
the scope around it is not.  What is found has the flag of the first line,
tells whether that line made an assumption, and counts the flag as fresh
exactly if it occurs in no line that could be seen from there. -/
theorem Walk.closed?_iff_closedBox (hw : Walk h s) (henter : s.enter known entry = (.ok (), s'))
    (hn : ((linesUpTo h entry).map Entry.number).Nodup) (formula : Nat → Formula)
    (hknown : ∀ i v, h[i]? = some v → ∀ w ∈ h.take i,
      v.known w.entry.number = some (formula w.entry.number)) (first last : Nat) :
    ((s'.closed? first last).isSome = true ↔ ∃ i m c e l,
        Entry.ClosedBox (linesUpTo h entry) i m c e l ∧ e.number = first ∧ l.number = last)
      ∧ ∀ subproof, s'.closed? first last = some subproof → ∀ i e,
        (linesUpTo h entry)[i]? = some e → e.number = first →
        subproof.flag = e.flag ∧ subproof.assumes = e.assumes
          ∧ (subproof.flagFresh = true ↔ ∀ z ∈ e.flag, ∀ k l, k < i →
              (linesUpTo h entry)[k]? = some l → Entry.Lasts (linesUpTo h entry) k i →
              (formula l.number).occurs z = false) := by
  have hnumbers : (h.map fun v => v.entry.number).Nodup := by
    have hall := hn
    rw [linesUpTo, List.map_append, List.nodup_append, List.map_map] at hall
    exact hall.1
  rw [Option.isSome_iff_exists]
  refine ⟨⟨?_, ?_⟩, ?_⟩
  · rintro ⟨subproof, hc⟩
    obtain ⟨i, v, id, ho, hfirst, hlast, hparent, houtside⟩ :=
      hw.exists_of_closed? hnumbers henter hc
    obtain ⟨m, c, l, hbox, hnumber⟩ := ho.closedBox hw henter houtside hparent hlast
    exact ⟨i, m, c, v.entry, l, hbox, hfirst, hnumber⟩
  · rintro ⟨i, m, c, e, l, hbox, rfl, rfl⟩
    exact hw.exists_closed?_of_closedBox henter hn hbox
  · intro subproof hc i e hi hnumber
    obtain ⟨i', v, id, ho, hfirst, -⟩ := hw.exists_of_closed? hnumbers henter hc
    have hi' : (linesUpTo h entry)[i']? = some v.entry := linesUpTo_getElem? ho.visit
    obtain rfl := index_eq_of_number hn hi hi' (hnumber.trans hfirst.symm)
    obtain rfl : e = v.entry := Option.some.inj (hi.symm.trans hi')
    exact ⟨ho.flag, ho.assumes, ho.fresh_iff_lasts hw henter (hknown i v ho.visit)⟩

/-- A flagged subproof whose last line lies deeper ends with its last direct
one, and its flag is fresh. -/
theorem closed?_iff_closedBox_flagged :
    ∃ s s' : Scopes, Walk [⟨⟨1, 0, none, false⟩, fun _ => some .falsity, []⟩,
        ⟨⟨2, 1, some "z", true⟩, fun _ => some .falsity, [0]⟩,
        ⟨⟨3, 2, none, true⟩, fun _ => some .falsity, [0, 1]⟩] s
      ∧ s.enter (fun _ => some .falsity) ⟨4, 0, none, false⟩ = (.ok (), s')
      ∧ (s'.closed? 2 2).isSome = true
      ∧ ∀ subproof, s'.closed? 2 2 = some subproof → subproof.flag = some "z"
        ∧ subproof.assumes = true ∧ subproof.flagFresh = true := by
  have hfirst := Walk.next .start (show Scopes.empty.enter (fun _ => some .falsity)
    ⟨1, 0, none, false⟩ = (.ok (), _) from rfl)
  have hsecond := Walk.next hfirst (show Scopes.enter _ (fun _ => some .falsity)
    ⟨2, 1, some "z", true⟩ = (.ok (), _) from rfl)
  have hthird := Walk.next hsecond (show Scopes.enter _ (fun _ => some .falsity)
    ⟨3, 2, none, true⟩ = (.ok (), _) from rfl)
  have hbox : Entry.ClosedBox [⟨1, 0, none, false⟩, ⟨2, 1, some "z", true⟩, ⟨3, 2, none, true⟩,
      ⟨4, 0, none, false⟩] 1 1 3 ⟨2, 1, some "z", true⟩ ⟨2, 1, some "z", true⟩ := by
    refine ⟨rfl, rfl, by decide, ⟨_, rfl, by decide⟩, ?_, ?_, rfl, by decide, by decide, rfl, ?_⟩
    · intro k l hik hk hl
      obtain rfl : k = 2 := by omega
      obtain rfl := Option.some.inj hl
      decide
    · intro k l hik hl
      have hlt : k < 4 := (List.getElem?_eq_some_iff.mp hl).1
      obtain rfl | rfl : k = 2 ∨ k = 3 := by omega
      · obtain rfl := Option.some.inj hl
        decide
      · obtain rfl := Option.some.inj hl
        decide
    · intro k l hik hk hl
      obtain rfl : k = 2 := by omega
      obtain rfl := Option.some.inj hl
      decide
  obtain ⟨hcited, hfound⟩ := hthird.closed?_iff_closedBox
    (show Scopes.enter _ (fun _ => some .falsity) ⟨4, 0, none, false⟩ = (.ok (), _) from rfl)
    (by decide) (fun _ => .falsity) (by
      intro i v hi w hwmem
      have hv := List.mem_of_getElem? hi
      simp only [List.nil_append, List.cons_append, List.mem_cons, List.not_mem_nil,
        or_false] at hv
      rcases hv with rfl | rfl | rfl <;> rfl) 2 2
  refine ⟨_, _, hthird, rfl, hcited.mpr ⟨1, 1, 3, _, _, hbox, rfl, rfl⟩, fun subproof hc => ?_⟩
  obtain ⟨hflag, hassumes, hfresh⟩ := hfound subproof hc 1 _ rfl rfl
  exact ⟨hflag, hassumes, hfresh.mpr fun z hz k l hk hl hlasts => rfl⟩

end Scopes

end NaturalDeduction
