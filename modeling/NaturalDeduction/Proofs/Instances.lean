/-
  NaturalDeduction.Proofs.Instances
  ─────────────────────────────────
  **THE SEARCH FOR A TERM MISSES NONE.**

  Whether `g` is an instance of `f` is a question about all terms, and is
  answered by one walk over both formulas.  The walk stops at the first
  disagreement, and a term that it found early decides what may come later.
  Main statements:

    • `seek_of_substitute` — along an instance the walk goes through, and finds
      the term wherever the variable is free,
    • `isSome_instanceTerm?_iff` — the search succeeds exactly if there is a
      term at all,
    • `substitute_injective` — where the variable is free there is one term at
      most, so what the search finds is the only answer.
-/
import NaturalDeduction.Formula.Instance

namespace NaturalDeduction.Formula

variable {x t : Name} {f g : Formula} {found : Option Name}

/-- If `x` is not free, there is nothing to replace and nothing to capture. -/
theorem substitute_of_not_isFree (h : f.isFree x = false) : f.substitute x t = some f := by
  induction f with
  | falsity => rfl
  | atom predicate terms =>
      have hterms : (terms.map fun n => if n = x then t else n) = terms.map id := by
        refine List.map_congr_left fun n hn => if_neg ?_
        rintro rfl
        rw [isFree, List.contains_iff_mem.mpr hn] at h
        exact Bool.noConfusion h
      rw [substitute, hterms, List.map_id]
  | neg inner ih => rw [substitute, ih h, Option.map_some]
  | join op left right ihl ihr =>
      rw [isFree, Bool.or_eq_false_iff] at h
      rw [substitute, ihl h.1, ihr h.2]
  | bind q bound body ih =>
      by_cases hbound : bound = x
      · rw [substitute, if_pos hbound]
      · have hbody : body.isFree x = false := by simpa [isFree, hbound] using h
        rw [substitute, if_neg hbound, hbody, Bool.and_false, if_neg (by simp), ih hbody,
          Option.map_some]

/-- Along a list of terms the walk finds what was put for `x`. -/
theorem seekTerms_map (ts : List Name) (hfound : found = none ∨ found = some t) :
    seekTerms x ts (ts.map fun n => if n = x then t else n) found
      = some (if ts.contains x then some t else found) := by
  induction ts generalizing found with
  | nil => rfl
  | cons n ts ih =>
      by_cases hn : n = x
      · -- Here `t` is found, or found again.
        have hstep : seekTerms x ts (ts.map fun n => if n = x then t else n) (some t)
            = some (some t) := by
          rw [ih (Or.inr rfl), ite_self]
        rcases hfound with rfl | rfl
        · simp [seekTerms, hn, hstep]
        · simp [seekTerms, hn, hstep]
      · simp [seekTerms, hn, ih hfound, Ne.symm hn]

/-- **Along an instance the walk goes through**, and finds the term wherever
`x` is free. -/
theorem seek_of_substitute (h : f.substitute x t = some g)
    (hfound : found = none ∨ found = some t) :
    seek x f g found = some (if f.isFree x then some t else found) := by
  induction f generalizing g found with
  | falsity =>
      rw [substitute, Option.some.injEq] at h
      rw [← h]
      rfl
  | atom predicate terms =>
      rw [substitute, Option.some.injEq] at h
      rw [← h, seek, if_pos rfl]
      exact seekTerms_map terms hfound
  | neg inner ih =>
      obtain ⟨g', hg', rfl⟩ := substitute_neg_eq_some_iff.mp h
      exact ih hg' hfound
  | join op left right ihl ihr =>
      obtain ⟨l, r, hl, hr, rfl⟩ := substitute_join_eq_some_iff.mp h
      rw [seek, if_pos rfl, ihl hl hfound]
      -- What the left side yields is nothing new to the right one.
      have hnext : (if left.isFree x then some t else found) = none
          ∨ (if left.isFree x then some t else found) = some t := by
        split
        · exact Or.inr rfl
        · exact hfound
      show seek x right r (if left.isFree x then some t else found) = _
      rw [ihr hr hnext, isFree]
      cases left.isFree x <;> cases right.isFree x <;> rfl
  | bind q bound body ih =>
      rcases substitute_bind_eq_some_iff.mp h with ⟨hbound, rfl⟩ | ⟨hbound, -, g', hg', rfl⟩
      · simp [seek, isFree, hbound]
      · simp [seek, isFree, hbound, ih hg' hfound]

/-- The term of an instance is found where it matters; else `x` stands in for
it. -/
theorem instanceTerm?_of_substitute (h : f.substitute x t = some g) :
    instanceTerm? x f g = some (if f.isFree x then t else x) := by
  have hseek := seek_of_substitute h (Or.inl rfl)
  unfold instanceTerm?
  rw [hseek]
  dsimp only
  by_cases hfree : f.isFree x = true
  · rw [if_pos hfree, if_pos hfree, Option.getD_some, if_pos h]
  · rw [if_neg hfree, if_neg hfree, Option.getD_none]
    rw [Bool.not_eq_true] at hfree
    rw [substitute_of_not_isFree hfree] at h ⊢
    rw [if_pos h]

/-- **The search succeeds exactly if there is a term at all.** -/
theorem isSome_instanceTerm?_iff :
    (instanceTerm? x f g).isSome = true ↔ ∃ t, f.substitute x t = some g := by
  constructor
  · intro hsome
    obtain ⟨t, ht⟩ := Option.isSome_iff_exists.mp hsome
    exact ⟨t, substitute_of_instanceTerm? ht⟩
  · rintro ⟨t, ht⟩
    rw [instanceTerm?_of_substitute ht, Option.isSome_some]

/-- Where `x` is free, different terms make different formulas. -/
theorem substitute_injective (hfree : f.isFree x = true) {u : Name}
    (ht : f.substitute x t = some g) (hu : f.substitute x u = some g) : t = u := by
  have hsearch := instanceTerm?_of_substitute ht
  rw [instanceTerm?_of_substitute hu, if_pos hfree, if_pos hfree, Option.some.injEq] at hsearch
  exact hsearch.symm

/-- A formula in which `x` is not free is its own only instance. -/
theorem instanceTerm?_of_not_isFree (hfree : f.isFree x = false) :
    instanceTerm? x f g = if g = f then some x else none := by
  have hself : f.substitute x x = some f := substitute_of_not_isFree hfree
  by_cases hg : g = f
  · rw [if_pos hg, hg, instanceTerm?_of_substitute hself, ite_self]
  · rw [if_neg hg, ← Option.not_isSome_iff_eq_none, isSome_instanceTerm?_iff]
    rintro ⟨t, ht⟩
    rw [substitute_of_not_isFree hfree, Option.some.injEq] at ht
    exact hg ht.symm

/-- **The search for a term is sound and complete.**  What it finds turns `f`
into `g`; if it finds nothing, no term does.  Where `x` is free in `f`, the term
found is the only one.  Where it is not, `f` has no instance but itself, and `x`
is given for its term. -/
theorem instanceTerm?_searches (x : Name) (f g : Formula) :
    (∀ t, instanceTerm? x f g = some t → f.substitute x t = some g)
      ∧ (instanceTerm? x f g = none → ∀ t, f.substitute x t ≠ some g)
      ∧ (f.isFree x = true → ∀ t, instanceTerm? x f g = some t →
          ∀ u, f.substitute x u = some g → u = t)
      ∧ (f.isFree x = false → instanceTerm? x f g = if g = f then some x else none) := by
  refine ⟨fun t => substitute_of_instanceTerm?, ?_, ?_, instanceTerm?_of_not_isFree⟩
  · intro hnone t ht
    rw [instanceTerm?_of_substitute ht] at hnone
    exact absurd hnone (by simp)
  · intro hfree t ht u hu
    exact substitute_injective hfree hu (substitute_of_instanceTerm? ht)

/-- `P(x) & forall(x) Q(x)` has `P(a) & forall(x) Q(x)` for an instance with `a`
alone; `exists(y) R(x,y)` has none with `R(y,y)`, since `y` would be captured;
and `forall(x) Q(x)` is its own instance. -/
theorem instanceTerm?_searches_shadowed :
    (∀ u, (conj (atom "P" ["x"]) (all "x" (atom "Q" ["x"]))).substitute "x" u
        = some (conj (atom "P" ["a"]) (all "x" (atom "Q" ["x"]))) → u = "a")
      ∧ (∀ t, (ex "y" (atom "R" ["x", "y"])).substitute "x" t
          ≠ some (ex "y" (atom "R" ["y", "y"])))
      ∧ instanceTerm? "x" (all "x" (atom "Q" ["x"])) (all "x" (atom "Q" ["x"])) = some "x" :=
  ⟨(instanceTerm?_searches "x" _ _).2.2.1 (by decide) "a" (by decide),
    (instanceTerm?_searches "x" _ _).2.1 (by decide),
    (instanceTerm?_searches "x" _ _).2.2.2 (by decide)⟩

end NaturalDeduction.Formula
