/-
  NaturalDeduction.Proofs.Semantics
  ─────────────────────────────────
  **TRUTH IN A STRUCTURE.**

  A structure has a domain that is not empty and reads every predicate as a
  relation on lists of objects; an assignment gives every name an object.  The
  predicate `=` of two terms is equality, whatever the structure says of it.

  What the rules need of truth:

    • `holds_congr`, `holds_update_of_not_isFree` — only free names matter,
    • `holds_substitute` — a substitution is a change of the assignment,
    • `holds_becomes` — replacing a name by another for the same object
      changes nothing.
-/
import Mathlib.Logic.Function.Basic
import NaturalDeduction.Formula.Replacement
import NaturalDeduction.Formula.Substitution

namespace NaturalDeduction

universe u

/-! ## §1. Structures and truth. -/

/-- A structure: objects, at least one, and what each predicate says of a list
of them. -/
structure Model where
  Object : Type u
  inhabited : Nonempty Object
  relation : Name → List Object → Prop

/-- An object for every name. -/
abbrev Model.Assignment (M : Model.{u}) := Name → M.Object

/-- What a predicate says of a list of objects.  `=` says of two that they are
one. -/
def Model.reads (M : Model.{u}) (predicate : Name) : List M.Object → Prop
  | [a, b] => if predicate = Formula.identityName then a = b else M.relation predicate [a, b]
  | objects => M.relation predicate objects

/-- The meaning of a connective. -/
def Connective.meaning : Connective → Prop → Prop → Prop
  | conj, p, q => p ∧ q
  | disj, p, q => p ∨ q
  | imp, p, q => p → q

/-- The meaning of a quantifier over a domain. -/
def Quantifier.meaning {α : Type u} : Quantifier → (α → Prop) → Prop
  | all, p => ∀ a, p a
  | ex, p => ∃ a, p a

namespace Formula

/-- Is a formula true in a structure under an assignment? -/
def holds (M : Model.{u}) : M.Assignment → Formula → Prop
  | _, falsity => False
  | s, atom predicate terms => M.reads predicate (terms.map s)
  | s, neg inner => ¬ holds M s inner
  | s, join op left right => op.meaning (holds M s left) (holds M s right)
  | s, bind quantifier var body =>
      quantifier.meaning fun a => holds M (Function.update s var a) body

variable {M : Model.{u}} {s t : M.Assignment}

@[simp] theorem holds_falsity : ¬ holds M s falsity := id

@[simp] theorem holds_neg {f : Formula} : holds M s (neg f) ↔ ¬ holds M s f := Iff.rfl

@[simp] theorem holds_conj {f g : Formula} :
    holds M s (conj f g) ↔ holds M s f ∧ holds M s g := Iff.rfl

@[simp] theorem holds_disj {f g : Formula} :
    holds M s (disj f g) ↔ holds M s f ∨ holds M s g := Iff.rfl

@[simp] theorem holds_imp {f g : Formula} :
    holds M s (imp f g) ↔ (holds M s f → holds M s g) := Iff.rfl

@[simp] theorem holds_all {x : Name} {f : Formula} :
    holds M s (all x f) ↔ ∀ a, holds M (Function.update s x a) f := Iff.rfl

@[simp] theorem holds_ex {x : Name} {f : Formula} :
    holds M s (ex x f) ↔ ∃ a, holds M (Function.update s x a) f := Iff.rfl

@[simp] theorem holds_identity {a b : Name} : holds M s (identity a b) ↔ s a = s b := by
  show M.reads identityName [s a, s b] ↔ _
  simp [Model.reads]

/-! ## §2. Only free names matter. -/

/-- A quantifier sees no more of a property than which objects have it. -/
theorem quantifier_meaning_congr {α : Type u} (q : Quantifier) {p p' : α → Prop}
    (h : ∀ a, p a ↔ p' a) : q.meaning p ↔ q.meaning p' := by
  rw [funext fun a => propext (h a)]

/-- **Truth depends on the free names alone.** -/
theorem holds_congr {f : Formula} (h : ∀ n, f.isFree n = true → s n = t n) :
    holds M s f ↔ holds M t f := by
  induction f generalizing s t with
  | falsity => exact Iff.rfl
  | atom predicate terms =>
      have hterms : terms.map s = terms.map t := by
        apply List.map_congr_left
        intro n hn
        exact h n (by simpa [isFree] using hn)
      show M.reads predicate (terms.map s) ↔ M.reads predicate (terms.map t)
      rw [hterms]
  | neg inner ih => exact not_congr (ih h)
  | join op left right ihl ihr =>
      have hl := ihl fun n hn => h n (by simp [isFree, hn])
      have hr := ihr fun n hn => h n (by simp [isFree, hn])
      show op.meaning (holds M s left) (holds M s right)
        ↔ op.meaning (holds M t left) (holds M t right)
      rw [hl, hr]
  | bind q var body ih =>
      -- Below the quantifier the assignments agree on the bound variable as well.
      refine quantifier_meaning_congr q fun a => ih fun n hn => ?_
      by_cases hv : n = var
      · rw [hv, Function.update_self, Function.update_self]
      · rw [Function.update_of_ne hv, Function.update_of_ne hv]
        exact h n (by simp [isFree, hn, Ne.symm hv])

/-- The object of a name that is not free does not matter. -/
theorem holds_update_of_not_isFree {f : Formula} {z : Name} (hz : f.isFree z = false)
    (a : M.Object) : holds M (Function.update s z a) f ↔ holds M s f := by
  apply holds_congr
  intro n hn
  have hne : n ≠ z := by
    rintro rfl
    rw [hz] at hn
    exact Bool.noConfusion hn
  exact Function.update_of_ne hne a s

/-- The object of a name that does not occur does not matter. -/
theorem holds_update_of_not_occurs {f : Formula} {z : Name} (hz : f.occurs z = false)
    (a : M.Object) : holds M (Function.update s z a) f ↔ holds M s f :=
  holds_update_of_not_isFree (isFree_of_not_occurs hz) a

/-! ## §3. Substitution and replacement. -/

/-- **A substitution is a change of the assignment**: with `t` for `x` a
formula says what it said when `x` stands for the object of `t`. -/
theorem holds_substitute {x t : Name} {f g : Formula} (h : f.substitute x t = some g) :
    holds M s g ↔ holds M (Function.update s x (s t)) f := by
  induction f generalizing g s with
  | falsity =>
      rw [substitute, Option.some.injEq] at h
      rw [← h]
      exact Iff.rfl
  | atom predicate terms =>
      rw [substitute, Option.some.injEq] at h
      rw [← h]
      show M.reads predicate ((terms.map fun n => if n = x then t else n).map s)
        ↔ M.reads predicate (terms.map (Function.update s x (s t)))
      rw [List.map_map]
      have hpoint : (s ∘ fun n => if n = x then t else n) = Function.update s x (s t) := by
        funext n
        by_cases hn : n = x
        · simp [hn]
        · simp [hn]
      rw [hpoint]
  | neg inner ih =>
      obtain ⟨g', hg', rfl⟩ := substitute_neg_eq_some_iff.mp h
      exact not_congr (ih hg')
  | join op left right ihl ihr =>
      obtain ⟨l, r, hl, hr, rfl⟩ := substitute_join_eq_some_iff.mp h
      show op.meaning (holds M s l) (holds M s r) ↔ op.meaning _ _
      rw [ihl hl, ihr hr]
  | bind q bound body ih =>
      rcases substitute_bind_eq_some_iff.mp h with
        ⟨hbound, rfl⟩ | ⟨hbound, hcapture, g', hg', rfl⟩
      · -- The quantifier binds `x` itself: nothing free is left to replace.
        refine quantifier_meaning_congr q fun a => ?_
        rw [hbound, Function.update_idem]
      · refine quantifier_meaning_congr q fun a => ?_
        show holds M (Function.update s bound a) g' ↔ _
        rw [ih hg', Function.update_comm (Ne.symm hbound)]
        -- Either `t` keeps its object below the quantifier, or `x` is not free there.
        by_cases ht : bound = t
        · have hfree := hcapture ht
          rw [holds_update_of_not_isFree hfree, holds_update_of_not_isFree hfree]
        · rw [Function.update_of_ne (Ne.symm ht)]

/-- Terms that became others under an identity stand for the same objects. -/
theorem map_eq_of_termsBecome {a b : Name} (hab : s a = s b) :
    ∀ {ts us : List Name}, termsBecome a b ts us = true → ts.map s = us.map s
  | [], [], _ => rfl
  | t :: ts, u :: us, h => by
      simp only [termsBecome, Bool.and_eq_true, Bool.or_eq_true, decide_eq_true_eq] at h
      have htail : ts.map s = us.map s := map_eq_of_termsBecome hab h.2
      have hhead : s t = s u := by
        rcases h.1 with htu | ⟨hta, hub⟩
        · rw [htu]
        · rw [hta, hub, hab]
      rw [List.map_cons, List.map_cons, hhead, htail]
  | [], _ :: _, h => absurd h (by simp [termsBecome])
  | _ :: _, [], h => absurd h (by simp [termsBecome])

/-- **Replacing a name by another for the same object changes nothing.** -/
theorem holds_becomes {a b : Name} {f g : Formula} (h : f.becomes a b g = true)
    (hab : s a = s b) : holds M s f ↔ holds M s g := by
  fun_induction becomes a b f g generalizing s with
  | case1 => exact Iff.rfl
  | case2 p ts q us =>
      simp only [Bool.and_eq_true, decide_eq_true_eq] at h
      show M.reads p (ts.map s) ↔ M.reads q (us.map s)
      rw [h.1, map_eq_of_termsBecome hab h.2]
  | case3 f g ih => exact not_congr (ih h hab)
  | case4 op f₁ f₂ op' g₁ g₂ ih₁ ih₂ =>
      simp only [Bool.and_eq_true, decide_eq_true_eq] at h
      show op.meaning _ _ ↔ op'.meaning _ _
      rw [h.1.1, ih₁ h.1.2 hab, ih₂ h.2 hab]
  | case5 q v f q' w g ih =>
      simp only [Bool.and_eq_true, decide_eq_true_eq] at h
      obtain ⟨⟨rfl, rfl⟩, hbody⟩ := h
      refine quantifier_meaning_congr q fun o => ?_
      split at hbody
      · -- A quantifier over either of the names leaves its body as it is.
        rw [of_decide_eq_true hbody]
      · next hv =>
          simp only [Bool.or_eq_true, decide_eq_true_eq, not_or] at hv
          refine ih hbody ?_
          rw [Function.update_of_ne (Ne.symm hv.1), Function.update_of_ne (Ne.symm hv.2), hab]
  | case6 => exact absurd h (by simp)

end Formula

end NaturalDeduction
