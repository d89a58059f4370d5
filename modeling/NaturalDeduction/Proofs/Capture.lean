/-
  NaturalDeduction.Proofs.Capture
  ───────────────────────────────
  **SUBSTITUTION AVOIDS CAPTURE**, and fails only where it cannot.

  The places of a formula where a term stands are listed from left to right,
  each with the variables bound around it.  A term is free at its place if none
  of these is the term itself, and a name put in its place would be captured if
  one of these is that name.  Main statements:

    • `isFree_iff_exists_free` — a name is free if it is free at some place,
    • `substitute_eq_none_iff` — a substitution fails exactly if the new name
      would be captured at some place where the old one is free,
    • `occurrences_substitute` — one that goes through changes the free places
      of the old name and no others, so `isFree_substitute` tells which names
      are free behind it,
    • `substitute_back` — a name that is new to the formula can be exchanged
      for the old one and back again.
-/
import NaturalDeduction.Proofs.Instances
import NaturalDeduction.Proofs.Semantics

namespace NaturalDeduction

/-! ## §1. The places of a formula. -/

/-- A term at its place in a formula. -/
structure Occurrence where
  name : Name
  /-- The variables bound by the quantifiers around it, outermost first. -/
  scope : List Name
deriving DecidableEq

namespace Occurrence

/-- Is the term free at its place? -/
def Free (o : Occurrence) : Prop := o.name ∉ o.scope

instance (o : Occurrence) : Decidable o.Free := inferInstanceAs (Decidable (o.name ∉ o.scope))

/-- The same place seen from outside one more quantifier. -/
def below (var : Name) (o : Occurrence) : Occurrence := { o with scope := var :: o.scope }

/-- The place with `t` on it, if `x` was free there. -/
def replace (x t : Name) (o : Occurrence) : Occurrence :=
  if o.name = x ∧ o.Free then { o with name := t } else o

variable {x t var : Name} {o : Occurrence}

theorem free_below_iff : (o.below var).Free ↔ o.name ≠ var ∧ o.Free := by
  show o.name ∉ var :: o.scope ↔ o.name ≠ var ∧ o.name ∉ o.scope
  rw [List.mem_cons, not_or]

/-- A quantifier over `x` leaves no place below it where `x` is free. -/
theorem replace_below_self : (o.below x).replace x t = o.below x := by
  refine if_neg ?_
  rintro ⟨hname, hfree⟩
  exact (free_below_iff.mp hfree).1 hname

/-- A quantifier over some other name makes no difference. -/
theorem replace_below (hvar : var ≠ x) :
    (o.below var).replace x t = (o.replace x t).below var := by
  unfold replace
  by_cases hfree : o.name = x ∧ o.Free
  · have hbelow : (o.below var).name = x ∧ (o.below var).Free :=
      ⟨hfree.1, free_below_iff.mpr ⟨hfree.1 ▸ Ne.symm hvar, hfree.2⟩⟩
    rw [if_pos hfree, if_pos hbelow]
    rfl
  · have hbelow : ¬ ((o.below var).name = x ∧ (o.below var).Free) :=
      fun h => hfree ⟨h.1, (free_below_iff.mp h.2).2⟩
    rw [if_neg hfree, if_neg hbelow]

end Occurrence

namespace Formula

/-- The terms of a formula at their places, from left to right. -/
def occurrences : Formula → List Occurrence
  | falsity => []
  | atom _ terms => terms.map fun n => ⟨n, []⟩
  | neg inner => inner.occurrences
  | join _ left right => left.occurrences ++ right.occurrences
  | bind _ var body => body.occurrences.map (Occurrence.below var)

variable {x t n : Name} {f g : Formula}

/-- A name is free exactly if it is free at some place. -/
theorem isFree_iff_exists_free :
    f.isFree n = true ↔ ∃ o ∈ f.occurrences, o.name = n ∧ o.Free := by
  induction f with
  | falsity => simp [isFree, occurrences]
  | atom predicate terms => simp [isFree, occurrences, Occurrence.Free]
  | neg inner ih => exact ih
  | join op left right ihl ihr =>
      rw [isFree, Bool.or_eq_true, ihl, ihr]
      simp only [occurrences, List.mem_append, or_and_right, exists_or]
  | bind q var body ih =>
      simp only [isFree, Bool.and_eq_true, decide_eq_true_eq, ih, occurrences, List.mem_map,
        exists_exists_and_eq_and, Occurrence.free_below_iff]
      constructor
      · rintro ⟨hvar, o, ho, hname, hfree⟩
        exact ⟨o, ho, hname, hname ▸ Ne.symm hvar, hfree⟩
      · rintro ⟨o, ho, hname, hvar, hfree⟩
        exact ⟨fun heq => hvar (hname.trans heq.symm), o, ho, hname, hfree⟩

/-! ## §2. Where a substitution fails. -/

/-- **A substitution fails exactly if a free `x` stands in the scope of a
quantifier that binds `t`.** -/
theorem substitute_eq_none_iff :
    f.substitute x t = none ↔ ∃ o ∈ f.occurrences, o.name = x ∧ o.Free ∧ t ∈ o.scope := by
  induction f with
  | falsity => simp [substitute, occurrences]
  | atom predicate terms => simp [substitute, occurrences]
  | neg inner ih => rw [substitute, Option.map_eq_none_iff, ih, occurrences]
  | join op left right ihl ihr =>
      simp only [occurrences, List.mem_append, or_and_right, exists_or, ← ihl, ← ihr]
      rw [substitute]
      cases left.substitute x t with
      | none => simp
      | some l =>
          cases right.substitute x t with
          | none => simp
          | some r => simp
  | bind q bound body ih =>
      simp only [occurrences, List.mem_map, exists_exists_and_eq_and, Occurrence.free_below_iff]
      rw [substitute]
      by_cases hbound : bound = x
      · -- No `x` below the quantifier is free.
        rw [if_pos hbound]
        constructor
        · intro h
          exact absurd h (by simp)
        · rintro ⟨o, -, hname, ⟨hne, -⟩, -⟩
          exact absurd (hname.trans hbound.symm) hne
      · rw [if_neg hbound]
        by_cases hcapture : bound = t ∧ body.isFree x = true
        · rw [if_pos (by simpa using hcapture)]
          obtain ⟨o, ho, hname, hfree⟩ := isFree_iff_exists_free.mp hcapture.2
          have hne : o.name ≠ bound := hname ▸ Ne.symm hbound
          have hscope : t ∈ (o.below bound).scope := hcapture.1 ▸ List.mem_cons_self
          exact iff_of_true rfl ⟨o, ho, hname, ⟨hne, hfree⟩, hscope⟩
        · -- The quantifier itself captures nothing, so one further in has to.
          rw [if_neg (by simpa using hcapture), Option.map_eq_none_iff, ih]
          constructor
          · rintro ⟨o, ho, hname, hfree, hscope⟩
            have hne : o.name ≠ bound := hname ▸ Ne.symm hbound
            exact ⟨o, ho, hname, ⟨hne, hfree⟩, List.mem_cons_of_mem _ hscope⟩
          · rintro ⟨o, ho, hname, ⟨-, hfree⟩, hscope⟩
            refine ⟨o, ho, hname, hfree, ?_⟩
            rcases List.mem_cons.mp hscope with heq | hinner
            · have hisFree := isFree_iff_exists_free.mpr ⟨o, ho, hname, hfree⟩
              exact absurd ⟨heq.symm, hisFree⟩ hcapture
            · exact hinner

/-! ## §3. What a substitution changes. -/

/-- **A substitution puts `t` where `x` was free**, and leaves every other place
as it was. -/
theorem occurrences_substitute (h : f.substitute x t = some g) :
    g.occurrences = f.occurrences.map (Occurrence.replace x t) := by
  induction f generalizing g with
  | falsity =>
      rw [substitute, Option.some.injEq] at h
      rw [← h]
      rfl
  | atom predicate terms =>
      rw [substitute, Option.some.injEq] at h
      rw [← h]
      show (terms.map fun n => if n = x then t else n).map _ = (terms.map _).map _
      rw [List.map_map, List.map_map]
      refine List.map_congr_left fun n _ => ?_
      by_cases hn : n = x
      · simp [Occurrence.replace, Occurrence.Free, hn]
      · simp [Occurrence.replace, hn]
  | neg inner ih =>
      obtain ⟨g', hg', rfl⟩ := substitute_neg_eq_some_iff.mp h
      rw [occurrences, occurrences, ih hg']
  | join op left right ihl ihr =>
      obtain ⟨l, r, hl, hr, rfl⟩ := substitute_join_eq_some_iff.mp h
      rw [occurrences, occurrences, ihl hl, ihr hr, List.map_append]
  | bind q bound body ih =>
      rcases substitute_bind_eq_some_iff.mp h with ⟨hbound, rfl⟩ | ⟨hbound, -, b, hb, rfl⟩
      · rw [occurrences, List.map_map]
        refine List.map_congr_left fun o _ => ?_
        rw [hbound]
        exact Occurrence.replace_below_self.symm
      · rw [occurrences, occurrences, ih hb, List.map_map, List.map_map]
        exact List.map_congr_left fun o _ => (Occurrence.replace_below hbound).symm

/-- **The free names behind a substitution**: all that were free but `x`, and
`t` if `x` was. -/
theorem isFree_substitute (h : f.substitute x t = some g) :
    g.isFree n = true ↔
      (n ≠ x ∧ f.isFree n = true) ∨ (n = t ∧ f.isFree x = true) := by
  -- At no free place of `x` is `t` bound, or the substitution would have failed.
  have hsafe : ∀ o ∈ f.occurrences, o.name = x → o.Free → t ∉ o.scope := by
    intro o ho hname hfree hscope
    have hnone := substitute_eq_none_iff.mpr ⟨o, ho, hname, hfree, hscope⟩
    exact absurd (h.symm.trans hnone) (by simp)
  simp only [isFree_iff_exists_free, occurrences_substitute h, List.mem_map,
    exists_exists_and_eq_and]
  constructor
  · rintro ⟨o, ho, hname, hfree⟩
    unfold Occurrence.replace at hname hfree
    by_cases hx : o.name = x ∧ o.Free
    · rw [if_pos hx] at hname
      exact Or.inr ⟨hname.symm, o, ho, hx⟩
    · rw [if_neg hx] at hname hfree
      have hne : n ≠ x := fun heq => hx ⟨hname.trans heq, hfree⟩
      exact Or.inl ⟨hne, o, ho, hname, hfree⟩
  · rintro (⟨hne, o, ho, hname, hfree⟩ | ⟨rfl, o, ho, hx⟩)
    · have hkept : o.replace x t = o := if_neg fun hx => hne (hname.symm.trans hx.1)
      rw [← hkept] at hname hfree
      exact ⟨o, ho, hname, hfree⟩
    · have hput : o.replace x n = { o with name := n } := if_pos hx
      refine ⟨o, ho, ?_⟩
      rw [hput]
      exact ⟨rfl, hsafe o ho hx.1 hx.2⟩

/-! ## §4. There and back. -/

/-- **A new name can be exchanged for `x` and back again.** -/
theorem substitute_back (h : f.occurs t = false) :
    ∃ g, f.substitute x t = some g ∧ g.substitute t x = some f := by
  induction f with
  | falsity => exact ⟨falsity, rfl, rfl⟩
  | atom predicate terms =>
      refine ⟨_, rfl, ?_⟩
      have hterms : (terms.map fun n => if n = x then t else n).map
          (fun n => if n = t then x else n) = terms.map id := by
        rw [List.map_map]
        refine List.map_congr_left fun n hn => ?_
        have hne : n ≠ t := by
          rintro rfl
          rw [occurs, List.contains_iff_mem.mpr hn] at h
          exact Bool.noConfusion h
        by_cases hx : n = x
        · simp [hx]
        · simp [hx, hne]
      rw [substitute, hterms, List.map_id]
  | neg inner ih =>
      obtain ⟨g, hthere, hback⟩ := ih h
      exact ⟨neg g, by rw [substitute, hthere, Option.map_some],
        by rw [substitute, hback, Option.map_some]⟩
  | join op left right ihl ihr =>
      rw [occurs, Bool.or_eq_false_iff] at h
      obtain ⟨l, hl, hl'⟩ := ihl h.1
      obtain ⟨r, hr, hr'⟩ := ihr h.2
      exact ⟨join op l r, by rw [substitute, hl, hr], by rw [substitute, hl', hr']⟩
  | bind q bound body ih =>
      have hparts : bound ≠ t ∧ body.occurs t = false := by simpa [occurs] using h
      by_cases hbound : bound = x
      · -- Nothing is replaced below a quantifier over `x`, so there is nothing to take back.
        refine ⟨bind q bound body, by rw [substitute, if_pos hbound], ?_⟩
        exact substitute_of_not_isFree (isFree_of_not_occurs h)
      · obtain ⟨b, hthere, hback⟩ := ih hparts.2
        refine ⟨bind q bound b, ?_, ?_⟩
        · rw [substitute_bind_of_ne hbound hparts.1, hthere, Option.map_some]
        · rw [substitute_bind_of_ne hparts.1 hbound, hback, Option.map_some]

/-! ## §5. Capture-avoiding substitution. -/

universe u

/-- **Substitution is capture-avoiding.**  It fails exactly if a free `x` stands
in the scope of a quantifier that binds `t`.  If it goes through, the free names
are those that were free but `x`, and `t` if `x` was, and the formula is true
exactly if the old one is with `x` standing for the object of `t`.  If `t` does
not occur in the formula, the substitution goes through and can be taken
back. -/
theorem substitute_avoids_capture (f : Formula) (x t : Name) :
    (f.substitute x t = none ↔ ∃ o ∈ f.occurrences, o.name = x ∧ o.Free ∧ t ∈ o.scope)
      ∧ (∀ g, f.substitute x t = some g →
          (∀ n, g.isFree n = true ↔
            (n ≠ x ∧ f.isFree n = true) ∨ (n = t ∧ f.isFree x = true))
          ∧ ∀ (M : Model.{u}) (s : M.Assignment),
              holds M s g ↔ holds M (Function.update s x (s t)) f)
      ∧ (f.occurs t = false →
          ∃ g, f.substitute x t = some g ∧ g.substitute t x = some f) :=
  ⟨substitute_eq_none_iff,
    fun _ h => ⟨fun _ => isFree_substitute h, fun _ _ => holds_substitute h⟩,
    substitute_back⟩

/-- In `P(x) & forall(x) R(x,y)` only the first `x` is free, so `y` can take its
place and is free twice over; `z` can take it and give it back. -/
theorem substitute_avoids_capture_shadowed :
    (∀ n, (conj (atom "P" ["y"]) (all "x" (atom "R" ["x", "y"]))).isFree n = true ↔
        (n ≠ "x" ∧ (conj (atom "P" ["x"]) (all "x" (atom "R" ["x", "y"]))).isFree n = true)
        ∨ (n = "y" ∧ (conj (atom "P" ["x"]) (all "x" (atom "R" ["x", "y"]))).isFree "x" = true))
      ∧ ∃ g, (conj (atom "P" ["x"]) (all "x" (atom "R" ["x", "y"]))).substitute "x" "z" = some g
          ∧ g.substitute "z" "x" = some (conj (atom "P" ["x"]) (all "x" (atom "R" ["x", "y"]))) :=
  ⟨((substitute_avoids_capture.{0} _ "x" "y").2.1 _ (by decide)).1,
    (substitute_avoids_capture.{0} _ "x" "z").2.2 (by decide)⟩

end Formula

end NaturalDeduction
