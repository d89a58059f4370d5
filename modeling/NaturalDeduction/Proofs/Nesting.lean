/-
  NaturalDeduction.Proofs.Nesting
  ───────────────────────────────
  **SUBPROOFS STAY A TREE, however they are used.**

  A check enters a line and records it, one line after the other, and ends with
  the first line that does not fit.  Here the calls come in any order: lines are
  entered again after one was refused, and recorded without having been entered.
  No call renumbers a subproof, and a new one is opened at the end of a part of
  the current path, so every path that is on record still runs from the outermost
  subproof inwards.  Main statements:

    • `enter_shape` — what any line, fit or not, makes of the subproofs,
    • `Nested.enter`, `Nested.record` — each call keeps the tree,
    • `nested_afterCalls` — so it stands after any calls, and no call looks up a
      subproof that is not there.
-/
import NaturalDeduction.Proofs.Walk

namespace NaturalDeduction.Scopes

variable {s s' : Scopes} {known : Nat → Option Formula} {entry : Entry}

/-! ## §1. Entering a line, fit or not. -/

/-- A line that is refused closes nothing, or all that is open. -/
theorem enter_eq_error {fault : StructureFault} (h : s.enter known entry = (.error fault, s')) :
    s' = s ∨ s' = { s with path := [] } := by
  unfold enter at h
  dsimp only at h
  split at h
  · exact .inl (Prod.mk.inj h).2.symm
  · split at h
    · split at h
      · exact absurd (Prod.mk.inj h).1 (by simp)
      · exact .inl (Prod.mk.inj h).2.symm
    · split at h
      · split at h
        · next hzero =>
            right
            rw [← (Prod.mk.inj h).2, hzero, List.take_zero]
        · exact absurd (Prod.mk.inj h).1 (by simp)
      · exact absurd (Prod.mk.inj h).1 (by simp)

/-- **What a line makes of the subproofs**, whether it fits or not: some of those
that are open are closed, and perhaps a new one is opened inside the others. -/
theorem enter_shape (s : Scopes) (known : Nat → Option Formula) (entry : Entry) :
    ∃ n, (s.enter known entry).2 = { s with path := s.path.take n }
      ∨ (s.enter known entry).2 = s.openAt known (s.path.take n) entry := by
  cases h : s.enter known entry with
  | mk outcome s' =>
      cases outcome with
      | error fault =>
          rcases enter_eq_error h with rfl | rfl
          · exact ⟨s'.path.length, .inl (by rw [List.take_length])⟩
          · exact ⟨0, .inl (by rw [List.take_zero])⟩
      | ok done =>
          rcases enter_eq_ok h with ⟨-, -, -, rfl⟩ | ⟨-, -, rfl⟩
          · exact ⟨entry.depth - 1, .inr rfl⟩
          · exact ⟨entry.depth, .inl rfl⟩

/-! ## §2. The tree. -/

theorem Rooted.lt {subproofs : List Subproof} {path : Path} (hr : Rooted subproofs path) :
    ∀ id ∈ path, id < subproofs.length := by
  intro id hid
  obtain ⟨k, hk⟩ := List.mem_iff_getElem?.mp hid
  obtain ⟨subproof, hsubproof, -⟩ := hr k id hk
  exact (List.getElem?_eq_some_iff.mp hsubproof).1

/-- A path stays what it is when a subproof is added. -/
theorem Rooted.append {subproofs : List Subproof} {path : Path} (hr : Rooted subproofs path)
    (more : List Subproof) : Rooted (subproofs ++ more) path := by
  intro k id hk
  obtain ⟨subproof, hid, hparent⟩ := hr k id hk
  exact ⟨subproof, List.getElem?_append_left (hr.lt id (List.mem_of_getElem? hk)) ▸ hid, hparent⟩

/-- **The subproofs form a tree, and every path on record is one of its
branches**: what stands on a path at some place was opened at the end of what
stands before it. -/
structure Nested (s : Scopes) : Prop where
  increasing : s.path.Pairwise (· < ·)
  path : Rooted s.subproofs s.path
  parents : ∀ (id : Nat) (subproof : Subproof), s.subproofs[id]? = some subproof →
    Rooted s.subproofs subproof.parent ∧ ∀ outer ∈ subproof.parent, outer < id
  places : ∀ place ∈ s.places, Rooted s.subproofs place.2
  openedBy : ∀ opening ∈ s.openedBy, opening.2 < s.subproofs.length

theorem nested_empty : empty.Nested where
  increasing := .nil
  path _ _ hk := absurd hk (by simp [empty])
  parents _ _ hid := absurd hid (by simp [empty])
  places _ hplace := absurd hplace (by simp [empty])
  openedBy _ hopening := absurd hopening (by simp [empty])

theorem Nested.close (hs : s.Nested) (n : Nat) :
    ({ s with path := s.path.take n } : Scopes).Nested where
  increasing := hs.increasing.sublist (List.take_sublist n s.path)
  path := hs.path.take n
  parents := hs.parents
  places := hs.places
  openedBy := hs.openedBy

/-- A new subproof has a greater number than all those around it. -/
theorem Nested.openAt (hs : s.Nested) (n : Nat) (known : Nat → Option Formula) (entry : Entry) :
    (s.openAt known (s.path.take n) entry).Nested := by
  have houter : ∀ id ∈ s.path.take n, id < s.subproofs.length := (hs.path.take n).lt
  constructor
  · show (s.path.take n ++ [s.subproofs.length]).Pairwise (· < ·)
    refine List.pairwise_append.mpr ⟨(hs.close n).increasing, List.pairwise_singleton _ _, ?_⟩
    intro id hid new hnew
    rw [List.mem_singleton.mp hnew]
    exact houter id hid
  · exact (hs.path.take n).concat rfl
  · intro id subproof hid
    by_cases hold : id < s.subproofs.length
    · have hid' : s.subproofs[id]? = some subproof := by
        rw [← hid]
        exact (List.getElem?_append_left hold).symm
      obtain ⟨hrooted, hsmaller⟩ := hs.parents id subproof hid'
      exact ⟨hrooted.append _, hsmaller⟩
    · -- The new subproof is the only one that was not there before.
      obtain ⟨hlength, hsubproof⟩ := List.getElem?_eq_some_iff.mp hid
      have hnew : id = s.subproofs.length := by
        have hbound : id < (s.subproofs ++ [_]).length := hlength
        rw [List.length_append, List.length_singleton] at hbound
        omega
      subst hnew
      have hparent : subproof.parent = s.path.take n := by
        rw [← hsubproof]
        simp [Scopes.openAt]
      rw [hparent]
      exact ⟨(hs.path.take n).append _, houter⟩
  · intro place hplace
    exact (hs.places place hplace).append _
  · intro opening hopening
    show opening.2 < (s.subproofs ++ [_]).length
    rw [List.length_append, List.length_singleton]
    rcases List.mem_cons.mp hopening with rfl | hbefore
    · exact Nat.lt_succ_self _
    · exact Nat.lt_succ_of_lt (hs.openedBy opening hbefore)

/-- **Entering a line keeps the tree**, also if the line is refused. -/
theorem Nested.enter (hs : s.Nested) (known : Nat → Option Formula) (entry : Entry) :
    (s.enter known entry).2.Nested := by
  obtain ⟨n, hclosed | hopened⟩ := enter_shape s known entry
  · rw [hclosed]
    exact hs.close n
  · rw [hopened]
    exact hs.openAt n known entry

theorem Nested.of_enter (hs : s.Nested) (h : s.enter known entry = (.ok (), s')) : s'.Nested := by
  have hkept := hs.enter known entry
  rwa [h] at hkept

/-- **Recording a line keeps the tree**, also if the line was never entered. -/
theorem Nested.record (hs : s.Nested) (number : Nat) : (s.record number).Nested where
  increasing := hs.increasing
  path := record_rooted hs.path number
  parents := by
    intro id subproof hid
    rw [record_getElem?] at hid
    obtain ⟨before, hbefore, hafter⟩ := Option.map_eq_some_iff.mp hid
    have hparent : subproof.parent = before.parent := by
      rw [← hafter]
      split <;> rfl
    obtain ⟨hrooted, hsmaller⟩ := hs.parents id before hbefore
    rw [hparent]
    exact ⟨record_rooted hrooted number, hsmaller⟩
  places := by
    intro place hplace
    rw [record_places] at hplace
    rcases List.mem_cons.mp hplace with rfl | hbefore
    · exact record_rooted hs.path number
    · exact record_rooted (hs.places place hbefore) number
  openedBy := by
    rw [record_subproofs_length]
    exact hs.openedBy

theorem Walk.nested {h : List Visit} (hw : Walk h s) : s.Nested := by
  induction hw with
  | start => exact nested_empty
  | next hw henter ih => exact (ih.of_enter henter).record _

/-! ## §3. Any calls. -/

/-- A call on the subproofs. -/
inductive Call where
  | enter (known : Nat → Option Formula) (entry : Entry)
  | record (number : Nat)

/-- What a call leaves behind, whatever it answered. -/
def Call.apply (s : Scopes) : Call → Scopes
  | enter known entry => (s.enter known entry).2
  | record number => s.record number

/-- The subproofs after some calls in order. -/
def afterCalls (calls : List Call) : Scopes := calls.foldl Call.apply .empty

theorem Nested.apply (hs : s.Nested) (call : Call) : (call.apply s).Nested := by
  cases call with
  | enter known entry => exact hs.enter known entry
  | record number => exact hs.record number

theorem Nested.foldl (hs : s.Nested) (calls : List Call) : (calls.foldl Call.apply s).Nested := by
  induction calls generalizing s with
  | nil => exact hs
  | cons call calls ih => exact ih (hs.apply call)

/-- **After any calls the subproofs form a tree.**  Hence the innermost open
subproof, which recording a line touches, and any subproof that a line is said to
have opened, which a citation looks up, is on record; and a line that is entered
stands as deep as it says. -/
theorem nested_afterCalls (calls : List Call) :
    (afterCalls calls).Nested
      ∧ (∀ id, (afterCalls calls).path.getLast? = some id →
          ∃ subproof, (afterCalls calls).subproofs[id]? = some subproof)
      ∧ (∀ first id, (afterCalls calls).openedBy.lookup first = some id →
          ∃ subproof, (afterCalls calls).subproofs[id]? = some subproof)
      ∧ ∀ known entry after, (afterCalls calls).enter known entry = (.ok (), after) →
          after.path.length = entry.depth := by
  have hnested : (afterCalls calls).Nested := nested_empty.foldl calls
  have hrecorded : ∀ id, id < (afterCalls calls).subproofs.length →
      ∃ subproof, (afterCalls calls).subproofs[id]? = some subproof :=
    fun id hid => ⟨_, List.getElem?_eq_getElem hid⟩
  refine ⟨hnested, fun id hlast => ?_, fun first id hlookup => ?_,
    fun known entry after henter => ?_⟩
  · exact hrecorded id (hnested.path.lt id (List.mem_of_getLast? hlast))
  · exact hrecorded id (hnested.openedBy (first, id) (mem_of_lookup hlookup))
  · exact enter_path_length henter

/-- A line is recorded that was never entered, an assumption outside of all
subproofs is refused but closes two, and a second line 1 opens a third. -/
theorem nested_afterCalls_refused :
    ∃ calls : List Call,
      ((afterCalls calls).places.map Prod.fst = [3, 1, 7] ∧ (afterCalls calls).path = [2]
        ∧ (afterCalls calls).openedBy = [(1, 2), (2, 1), (1, 0)])
      ∧ (afterCalls calls).Nested
      ∧ (∃ subproof, (afterCalls calls).subproofs[2]? = some subproof)
      ∧ ∃ after, (afterCalls calls).enter (fun _ => none) ⟨4, 2, some "x", false⟩ = (.ok (), after)
        ∧ after.path.length = 2 := by
  let calls : List Call :=
    [.record 7, .enter (fun _ => none) ⟨1, 1, none, true⟩, .record 1,
      .enter (fun _ => none) ⟨2, 2, some "z", false⟩,
      .enter (fun _ => none) ⟨3, 0, none, true⟩, .record 3,
      .enter (fun _ => none) ⟨1, 1, some "y", true⟩]
  obtain ⟨hnested, -, hopened, hdepth⟩ := nested_afterCalls calls
  refine ⟨calls, by decide, hnested, hopened 1 2 (by decide), _, rfl, ?_⟩
  exact hdepth (fun _ => none) ⟨4, 2, some "x", false⟩ _ rfl

end NaturalDeduction.Scopes
