/-
  NaturalDeduction.Proofs.Templates
  ─────────────────────────────────
  **REPLACEMENT AFTER LEIBNIZ.**

  What may be said of `a` may be said of `b` if the two are one.  The textbook
  has a formula with a blank, and puts `a` in the blank before the step and `b`
  behind it; here two given formulas are compared, term by term.  Both are the
  same.  A blank is a name of its own, and the formula that has it is the
  template of the step:

    • `exists_template` — a replacement has a template with any blank that is
      new to it,
    • `becomes_of_template` — what comes from one template by putting `a` and
      `b` for a blank is a replacement,
    • `becomes_symm`, `becomes_of_substitute` — replacements go both ways, and
      replacing all free occurrences is replacing some.
-/
import Mathlib.Data.Fintype.EquivFin
import Mathlib.Data.Set.Finite.Basic
import NaturalDeduction.Proofs.Instances
import NaturalDeduction.Proofs.Semantics

namespace NaturalDeduction.Formula

variable {a b m : Name} {f g T : Formula}

/-! ## §1. Templates of a replacement. -/

/-- The terms of a template: the blank `m` wherever `a` became `b`. -/
theorem exists_template_terms :
    ∀ {ts us : List Name}, termsBecome a b ts us = true → m ∉ ts →
      ∃ blanks : List Name, (blanks.map fun n => if n = m then a else n) = ts
        ∧ (blanks.map fun n => if n = m then b else n) = us
  | [], [], _, _ => ⟨[], rfl, rfl⟩
  | t :: ts, u :: us, h, hm => by
      simp only [termsBecome, Bool.and_eq_true, Bool.or_eq_true, decide_eq_true_eq] at h
      rw [List.mem_cons, not_or] at hm
      obtain ⟨blanks, hts, hus⟩ := exists_template_terms h.2 hm.2
      rcases h.1 with rfl | ⟨rfl, rfl⟩
      · -- A term that stayed is not the blank, so it stays under both substitutions.
        refine ⟨t :: blanks, ?_, ?_⟩
        · rw [List.map_cons, hts, if_neg (Ne.symm hm.1)]
        · rw [List.map_cons, hus, if_neg (Ne.symm hm.1)]
      · refine ⟨m :: blanks, ?_, ?_⟩
        · rw [List.map_cons, hts, if_pos rfl]
        · rw [List.map_cons, hus, if_pos rfl]
  | [], _ :: _, h, _ => absurd h (by simp [termsBecome])
  | _ :: _, [], h, _ => absurd h (by simp [termsBecome])

/-- **A replacement has a template**, whatever new name is taken for the
blank. -/
theorem exists_template (h : f.becomes a b g = true) (hm : f.occurs m = false) :
    ∃ T : Formula, T.substitute m a = some f ∧ T.substitute m b = some g := by
  fun_induction becomes a b f g with
  | case1 => exact ⟨falsity, rfl, rfl⟩
  | case2 p ts q us =>
      simp only [Bool.and_eq_true, decide_eq_true_eq] at h
      have hts : m ∉ ts := by simpa [occurs] using hm
      obtain ⟨blanks, hts, hus⟩ := exists_template_terms h.2 hts
      exact ⟨atom p blanks, by rw [substitute, hts], by rw [substitute, hus, h.1]⟩
  | case3 f g ih =>
      obtain ⟨T, hf, hg⟩ := ih h hm
      refine ⟨neg T, ?_, ?_⟩
      · rw [substitute, hf, Option.map_some]
      · rw [substitute, hg, Option.map_some]
  | case4 op f₁ f₂ op' g₁ g₂ ih₁ ih₂ =>
      simp only [Bool.and_eq_true, decide_eq_true_eq] at h
      rw [occurs, Bool.or_eq_false_iff] at hm
      obtain ⟨T₁, hf₁, hg₁⟩ := ih₁ h.1.2 hm.1
      obtain ⟨T₂, hf₂, hg₂⟩ := ih₂ h.2 hm.2
      exact ⟨join op T₁ T₂, by rw [substitute, hf₁, hf₂], by rw [substitute, hg₁, hg₂, h.1.1]⟩
  | case5 q v f q' w g ih =>
      simp only [Bool.and_eq_true, decide_eq_true_eq] at h
      obtain ⟨⟨rfl, rfl⟩, hbody⟩ := h
      have hparts : v ≠ m ∧ f.occurs m = false := by simpa [occurs] using hm
      split at hbody
      · -- A quantifier over `a` or `b` lets nothing change, so there is no blank below it.
        have hfg : f = g := of_decide_eq_true hbody
        have hfree : (bind q v f).isFree m = false := isFree_of_not_occurs hm
        rw [← hfg]
        exact ⟨bind q v f, substitute_of_not_isFree hfree, substitute_of_not_isFree hfree⟩
      · next hv =>
          simp only [Bool.or_eq_true, decide_eq_true_eq, not_or] at hv
          obtain ⟨T, hf, hg⟩ := ih hbody hparts.2
          refine ⟨bind q v T, ?_, ?_⟩
          · rw [substitute_bind_of_ne hparts.1 hv.1, hf, Option.map_some]
          · rw [substitute_bind_of_ne hparts.1 hv.2, hg, Option.map_some]
  | case6 => exact absurd h (by simp)

/-! ## §2. Replacements from a template. -/

theorem termsBecome_map (blanks : List Name) :
    termsBecome a b (blanks.map fun n => if n = m then a else n)
      (blanks.map fun n => if n = m then b else n) = true := by
  induction blanks with
  | nil => rfl
  | cons n blanks ih =>
      by_cases hn : n = m
      · simp [termsBecome, hn, ih]
      · simp [termsBecome, hn, ih]

theorem termsBecome_refl (ts : List Name) : termsBecome a b ts ts = true := by
  induction ts with
  | nil => rfl
  | cons t ts ih => simp [termsBecome, ih]

/-- Replacing nothing is a replacement. -/
theorem becomes_refl (f : Formula) : f.becomes a b f = true := by
  induction f with
  | falsity => rfl
  | atom p ts => simp [becomes, termsBecome_refl]
  | neg f ih => exact ih
  | join op f₁ f₂ ih₁ ih₂ => simp [becomes, ih₁, ih₂]
  | bind q v f ih => simp [becomes, ih]

/-- **What comes from one template is a replacement**, also where the blank is
not a new name. -/
theorem becomes_of_template (hf : T.substitute m a = some f) (hg : T.substitute m b = some g) :
    f.becomes a b g = true := by
  -- The template decides the shape of both formulas, so the induction is on it.
  induction T generalizing f g with
  | falsity =>
      rw [substitute, Option.some.injEq] at hf hg
      rw [← hf, ← hg]
      rfl
  | atom p blanks =>
      rw [substitute, Option.some.injEq] at hf hg
      rw [← hf, ← hg]
      simp [becomes, termsBecome_map]
  | neg T ih =>
      obtain ⟨f', hf', rfl⟩ := substitute_neg_eq_some_iff.mp hf
      obtain ⟨g', hg', rfl⟩ := substitute_neg_eq_some_iff.mp hg
      show becomes a b f' g' = true
      exact ih hf' hg'
  | join op T₁ T₂ ih₁ ih₂ =>
      obtain ⟨f₁, f₂, hf₁, hf₂, rfl⟩ := substitute_join_eq_some_iff.mp hf
      obtain ⟨g₁, g₂, hg₁, hg₂, rfl⟩ := substitute_join_eq_some_iff.mp hg
      simp [becomes, ih₁ hf₁ hg₁, ih₂ hf₂ hg₂]
  | bind q v T ih =>
      rcases substitute_bind_eq_some_iff.mp hf with
        ⟨hv, rfl⟩ | ⟨hv, hcaptureA, f', hf', rfl⟩
      · -- The quantifier binds the blank: both formulas are the template itself.
        rw [substitute, if_pos hv, Option.some.injEq] at hg
        rw [← hg]
        exact becomes_refl _
      · rcases substitute_bind_eq_some_iff.mp hg with
          ⟨hv', -⟩ | ⟨-, hcaptureB, g', hg', rfl⟩
        · exact absurd hv' hv
        · by_cases hab : v = a ∨ v = b
          · -- Neither name was caught, so there is no blank below the quantifier.
            have hfree : T.isFree m = false := hab.elim hcaptureA hcaptureB
            rw [substitute_of_not_isFree hfree, Option.some.injEq] at hf' hg'
            rw [← hf', ← hg']
            exact becomes_refl _
          · have hbody : f'.becomes a b g' = true := ih hf' hg'
            simpa [becomes, hab] using hbody

/-! ## §3. A blank can always be found. -/

/-- Only finitely many names occur in a formula. -/
theorem finite_occurs (f : Formula) : {n | f.occurs n = true}.Finite := by
  induction f with
  | falsity => simp [occurs]
  | atom p ts =>
      refine (List.finite_toSet ts).subset fun n hn => ?_
      exact List.contains_iff_mem.mp hn
  | neg f ih => exact ih
  | join op f₁ f₂ ih₁ ih₂ =>
      refine (ih₁.union ih₂).subset fun n hn => ?_
      exact Bool.or_eq_true_iff.mp hn
  | bind q v f ih =>
      refine (ih.insert v).subset fun n hn => ?_
      have hn' : v = n ∨ f.occurs n = true := by simpa [occurs] using hn
      exact hn'.imp Eq.symm id

/-- There is always a name left over for a blank. -/
theorem exists_blank (f : Formula) : ∃ m, f.occurs m = false := by
  obtain ⟨m, hm⟩ := f.finite_occurs.exists_notMem
  exact ⟨m, by simpa using hm⟩

/-! ## §4. Replacements go both ways. -/

/-- A replacement the other way has the same template. -/
theorem becomes_symm (h : f.becomes a b g = true) : g.becomes b a f = true := by
  obtain ⟨m, hm⟩ := exists_blank f
  obtain ⟨T, hf, hg⟩ := exists_template h hm
  exact becomes_of_template hg hf

/-- A name in its own place changes nothing. -/
theorem substitute_self (x : Name) (f : Formula) : f.substitute x x = some f := by
  induction f with
  | falsity => rfl
  | atom p ts =>
      have hts : (ts.map fun n => if n = x then x else n) = ts.map id :=
        List.map_congr_left fun n _ => by by_cases hn : n = x <;> simp [hn]
      rw [substitute, hts, List.map_id]
  | neg f ih => rw [substitute, ih, Option.map_some]
  | join op f₁ f₂ ih₁ ih₂ => rw [substitute, ih₁, ih₂]
  | bind q v f ih =>
      by_cases hv : v = x
      · rw [substitute, if_pos hv]
      · rw [substitute_bind_of_ne hv hv, ih, Option.map_some]

/-- Replacing all free occurrences is a replacement: the formula is its own
template, with `a` for the blank. -/
theorem becomes_of_substitute (h : f.substitute a b = some g) : f.becomes a b g = true :=
  becomes_of_template (substitute_self a f) h

/-- **Replacement is Leibniz's law.**  For any blank `m` that does not occur in
the first formula, one formula becomes the other by replacing `a` with `b`
exactly if both come from one template by putting `a` and `b` for the blank.  So
nothing need be replaced, what was replaced can be put back, and all free
occurrences can be replaced at once. -/
theorem becomes_iff_template (a b : Name) (f g : Formula) :
    (∀ m, f.occurs m = false →
        (f.becomes a b g = true ↔
          ∃ T : Formula, T.substitute m a = some f ∧ T.substitute m b = some g))
      ∧ f.becomes a b f = true
      ∧ (f.becomes a b g = true ↔ g.becomes b a f = true)
      ∧ ∀ f', f.substitute a b = some f' → f.becomes a b f' = true := by
  refine ⟨fun m hm => ?_, becomes_refl f, ⟨becomes_symm, becomes_symm⟩,
    fun f' => becomes_of_substitute⟩
  constructor
  · intro h
    exact exists_template h hm
  · rintro ⟨T, hf, hg⟩
    exact becomes_of_template hf hg

/-- From `R(a,a) & forall(a) P(a)` the second `a` may become `b`, the blank being
`m`; below a quantifier over `b` no `a` may, so that step has no template. -/
theorem becomes_iff_template_partial :
    (∃ T : Formula,
        T.substitute "m" "a" = some (conj (atom "R" ["a", "a"]) (all "a" (atom "P" ["a"])))
        ∧ T.substitute "m" "b" = some (conj (atom "R" ["a", "b"]) (all "a" (atom "P" ["a"]))))
      ∧ (¬ ∃ T : Formula, T.substitute "m" "a" = some (ex "b" (atom "R" ["a", "b"]))
          ∧ T.substitute "m" "b" = some (ex "b" (atom "R" ["b", "b"])))
      ∧ (conj (atom "R" ["a", "a"]) (all "a" (atom "P" ["a"]))).becomes "a" "b"
          (conj (atom "R" ["b", "b"]) (all "a" (atom "P" ["a"]))) = true := by
  refine ⟨?_, ?_, ?_⟩
  · exact ((becomes_iff_template "a" "b" _ _).1 "m" (by decide)).mp (by decide)
  · intro h
    have hbecomes := ((becomes_iff_template "a" "b" _ _).1 "m" (by decide)).mpr h
    exact absurd hbecomes (by decide)
  · exact (becomes_iff_template "a" "b" _ falsity).2.2.2 _ (by decide)

end NaturalDeduction.Formula
