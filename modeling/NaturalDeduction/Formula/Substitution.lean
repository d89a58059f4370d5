/-
  NaturalDeduction.Formula.Substitution
  ─────────────────────────────────────
  **OCCURRENCE, FREEDOM, and substitution of one name for another.**

  Names are replaced where they occur free.  No bound variable is ever
  renamed: when the new name would be caught by a quantifier that binds it,
  the substitution fails instead.
-/
import NaturalDeduction.Formula.Basic

namespace NaturalDeduction.Formula

/-- Does a name appear anywhere among the terms or the bound variables? -/
def occurs (name : Name) : Formula → Bool
  | falsity => false
  | atom _ terms => terms.contains name
  | neg inner => inner.occurs name
  | join _ left right => left.occurs name || right.occurs name
  | bind _ var body => var = name || body.occurs name

/-- Does a name occur as a term outside the scope of every quantifier that
binds it? -/
def isFree (name : Name) : Formula → Bool
  | falsity => false
  | atom _ terms => terms.contains name
  | neg inner => inner.isFree name
  | join _ left right => left.isFree name || right.isFree name
  | bind _ var body => var ≠ name && body.isFree name

/-- The formula with `term` in place of the free occurrences of `var`, unless
`term` would be bound at one of them. -/
def substitute (var term : Name) : Formula → Option Formula
  | falsity => some falsity
  | atom predicate terms =>
      some (atom predicate (terms.map fun t => if t = var then term else t))
  | neg inner => (inner.substitute var term).map neg
  | join op left right =>
      match left.substitute var term, right.substitute var term with
      | some l, some r => some (join op l r)
      | _, _ => none
  | bind quantifier bound body =>
      if bound = var then some (bind quantifier bound body)
      else if bound = term && body.isFree var then none
      else (body.substitute var term).map (bind quantifier bound)

/-- A free name occurs. -/
theorem occurs_of_isFree {name : Name} :
    ∀ {f : Formula}, f.isFree name = true → f.occurs name = true
  | falsity, h => h
  | atom _ _, h => h
  | neg inner, h => occurs_of_isFree (f := inner) h
  | join _ left right, h => by
      simp only [isFree, Bool.or_eq_true] at h
      simp only [occurs, Bool.or_eq_true]
      exact h.imp occurs_of_isFree occurs_of_isFree
  | bind _ var body, h => by
      simp only [isFree, Bool.and_eq_true] at h
      simp only [occurs, Bool.or_eq_true]
      exact Or.inr (occurs_of_isFree h.2)

/-- A name that does not occur is not free. -/
theorem isFree_of_not_occurs {name : Name} {f : Formula} (h : f.occurs name = false) :
    f.isFree name = false := by
  cases hfree : f.isFree name with
  | false => rfl
  | true =>
      rw [occurs_of_isFree hfree] at h
      exact Bool.noConfusion h

/-! A substitution that goes through, one constructor at a time. -/

section

variable {x t bound : Name} {q : Quantifier} {op : Connective} {left right body g : Formula}

theorem substitute_neg_eq_some_iff {inner : Formula} :
    (neg inner).substitute x t = some g ↔ ∃ f, inner.substitute x t = some f ∧ neg f = g := by
  rw [substitute, Option.map_eq_some_iff]

theorem substitute_join_eq_some_iff :
    (join op left right).substitute x t = some g ↔
      ∃ l r, left.substitute x t = some l ∧ right.substitute x t = some r
        ∧ join op l r = g := by
  rw [substitute]
  cases left.substitute x t with
  | none => simp
  | some l =>
      cases right.substitute x t with
      | none => simp
      | some r => simp

/-- A quantifier over `x` hides all that is below it.  Below any other the
substitution goes on, unless `t` would be caught. -/
theorem substitute_bind_eq_some_iff :
    (bind q bound body).substitute x t = some g ↔
      (bound = x ∧ bind q bound body = g) ∨
      (bound ≠ x ∧ (bound = t → body.isFree x = false)
        ∧ ∃ b, body.substitute x t = some b ∧ bind q bound b = g) := by
  rw [substitute]
  by_cases hbound : bound = x
  · simp [hbound]
  · by_cases hcapture : bound = t ∧ body.isFree x = true
    · rw [if_neg hbound, if_pos (by simpa using hcapture)]
      constructor
      · intro h
        exact absurd h (by simp)
      · rintro (⟨heq, -⟩ | ⟨-, hfree, -⟩)
        · exact absurd heq hbound
        · exact absurd hcapture.2 (by simp [hfree hcapture.1])
    · have hfree : bound = t → body.isFree x = false := by simpa using hcapture
      rw [if_neg hbound, if_neg (by simpa using hcapture), Option.map_eq_some_iff]
      simp only [hbound, false_and, false_or, ne_eq, not_false_eq_true, true_and]
      exact (and_iff_right hfree).symm

/-- A quantifier over some other name hides nothing and catches nothing. -/
theorem substitute_bind_of_ne (hx : bound ≠ x) (ht : bound ≠ t) :
    (bind q bound body).substitute x t = (body.substitute x t).map (bind q bound) := by
  simp [substitute, hx, ht]

end

end NaturalDeduction.Formula
