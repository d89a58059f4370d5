/-
  NaturalDeduction.Proofs.Spelling
  ────────────────────────────────
  **THE WORDS OF A WRITTEN FORMULA.**

  A formula can be written down and read back if its names are names
  (`WellFormed`).  `words` says which words it is written with, and
  `spelled_render` that its written form is read as these.
-/
import Mathlib.Data.List.Basic
import NaturalDeduction.Formula.Printer
import NaturalDeduction.Proofs.Lexemes

namespace NaturalDeduction

open Token (Word Spelled Breaks isTermText termKind)

/-! ## §1. Formulas that can be written down. -/

namespace Formula

/-- **Predicates and bound variables are names, terms are names or numerals,
`=` stands between two terms**, and the words of the quantifiers have none. -/
def WellFormed : Formula → Prop
  | falsity => True
  | atom predicate terms =>
      (if predicate = identityName then terms.length = 2 else isName predicate = true)
        ∧ (predicate = Quantifier.all.word ∨ predicate = Quantifier.ex.word → terms = [])
        ∧ ∀ t ∈ terms, isTermText t = true
  | neg inner => inner.WellFormed
  | join _ left right => left.WellFormed ∧ right.WellFormed
  | bind _ var body => isName var = true ∧ body.WellFormed

/-- Whether a formula can be written down is decided part by part. -/
instance : DecidablePred WellFormed := go
where
  go : (f : Formula) → Decidable f.WellFormed
    | falsity => isTrue trivial
    | atom _ _ => inferInstanceAs (Decidable (_ ∧ _ ∧ _))
    | neg inner => go inner
    | join _ left right => @instDecidableAnd _ _ (go left) (go right)
    | bind _ _ body => @instDecidableAnd _ _ _ (go body)

/-- An atom that can be written down is an identity, or has a name for its
predicate. -/
theorem WellFormed.atom_cases {predicate : Name} {terms : List Name}
    (h : (atom predicate terms).WellFormed) :
    (∃ left right, predicate = identityName ∧ terms = [left, right])
      ∨ (predicate ≠ identityName ∧ isName predicate = true) := by
  obtain ⟨hpredicate, -, -⟩ := h
  split at hpredicate
  · next hid =>
      obtain ⟨left, right, hterms⟩ := List.length_eq_two.mp hpredicate
      exact Or.inl ⟨left, right, hid, hterms⟩
  · next hid => exact Or.inr ⟨hid, hpredicate⟩

end Formula

/-! ## §2. Their words. -/

/-- The word for a term. -/
def termWord (n : Name) : Word := (termKind n, n)

/-- The words for terms that come after another one. -/
def moreTermWords (terms : List Name) : List Word :=
  terms.flatMap fun t => [(.comma, ","), termWord t]

/-- The words of an atom that is no identity. -/
def atomWords (predicate : Name) : List Name → List Word
  | [] => [(.identifier, predicate)]
  | t :: ts =>
      (.identifier, predicate) :: (.leftParen, "(") :: termWord t
        :: (moreTermWords ts ++ [(.rightParen, ")")])

/-- The words of an identity. -/
def identityWords (left right : Name) : List Word :=
  [termWord left, (.equals, "="), termWord right]

/-- The word for a connective. -/
def Connective.word : Connective → Word
  | conj => (.ampersand, "&")
  | disj => (.identifier, "v")
  | imp => (.greater, ">")

/-- The words of a formula. -/
def Formula.words : Formula → List Word
  | falsity => [(.falsity, "0")]
  | atom predicate terms =>
      match (atom predicate terms).identity? with
      | some (left, right) => identityWords left right
      | none => atomWords predicate terms
  | neg inner => (.tilde, "~") :: inner.words
  | join op left right =>
      (.leftParen, "(") :: (left.words ++ op.word :: (right.words ++ [(.rightParen, ")")]))
  | bind quantifier var body =>
      (.identifier, quantifier.word) :: (.leftParen, "(") :: (.identifier, var)
        :: (.rightParen, ")") :: body.words

/-! ## §3. The written form is read as these words. -/

/-- Blanks, commas and parentheses end a name. -/
theorem breaks_cons {c : Char} (hc : c = ' ' ∨ c = ',' ∨ c = '(' ∨ c = ')') (cs : List Char) :
    Breaks (c :: cs) := by
  intro d hd
  rw [← Option.some.inj hd]
  rcases hc with rfl | rfl | rfl | rfl <;> decide

/-- The terms of an atom, with a comma and a blank between them. -/
theorem spelled_terms (t : Name) (ts : List Name) (h : ∀ u ∈ t :: ts, isTermText u = true) :
    Spelled (", ".intercalate (t :: ts)).toList (termWord t :: moreTermWords ts) := by
  induction ts generalizing t with
  | nil =>
      rw [String.intercalate_singleton]
      exact .term (h t List.mem_cons_self)
  | cons u ts ih =>
      rw [String.intercalate_cons_cons, String.toList_append, String.toList_append,
        List.append_assoc]
      have hmore := ih u fun v hv => h v (List.mem_cons_of_mem _ hv)
      exact (Spelled.term (h t List.mem_cons_self)).append
        ((hmore.blank).sign rfl (by decide)) (breaks_cons (by decide) _)

/-- An identity is written as `left = right`. -/
theorem spelled_identity {left right : Name} (hl : isTermText left = true)
    (hr : isTermText right = true) :
    Spelled (left ++ " = " ++ right).toList (identityWords left right) := by
  rw [String.toList_append, String.toList_append, List.append_assoc]
  exact (Spelled.term hl).append (((Spelled.term hr).blank.sign rfl (by decide)).blank)
    (breaks_cons (by decide) _)

namespace Formula

theorem renderAtom_cons {predicate : Name} (h : predicate ≠ identityName) (t : Name)
    (ts : List Name) :
    renderAtom predicate (t :: ts) = predicate ++ "(" ++ ", ".intercalate (t :: ts) ++ ")" := by
  match ts with
  | [] => rfl
  | [u] => simp [renderAtom, h, String.intercalate_cons_cons, String.append_assoc]
  | u :: v :: ts => rfl

/-- Only `=` makes an identity. -/
theorem words_atom {predicate : Name} (h : predicate ≠ identityName) (terms : List Name) :
    (atom predicate terms).words = atomWords predicate terms := by
  have hnone : (atom predicate terms).identity? = none := by
    unfold identity?
    split
    · next heq =>
        rw [if_neg]
        rw [← (Formula.atom.inj heq).1]
        exact h
    · rfl
  rw [words, hnone]

/-- An atom is written with its words. -/
theorem spelled_atom {predicate : Name} {terms : List Name}
    (h : (atom predicate terms).WellFormed) :
    Spelled (renderAtom predicate terms).toList (atom predicate terms).words := by
  have hterms := h.2.2
  rcases h.atom_cases with ⟨left, right, rfl, rfl⟩ | ⟨hid, hname⟩
  · have hwords : (atom identityName [left, right]).words = identityWords left right := rfl
    have hrender : renderAtom identityName [left, right] = left ++ " = " ++ right := rfl
    rw [hwords, hrender]
    exact spelled_identity (hterms left (by simp)) (hterms right (by simp))
  · rw [words_atom hid]
    cases terms with
    | nil => exact .name hname
    | cons t ts =>
        rw [renderAtom_cons hid]
        simp only [String.toList_append, List.append_assoc]
        exact (Spelled.name hname).append
          ((Spelled.append (spelled_terms t ts hterms) (Spelled.nil.sign rfl (by decide))
            (breaks_cons (by decide) _)).sign rfl (by decide))
          (breaks_cons (by decide) _)

/-- The sign of a connective between blanks. -/
theorem spelled_connective (op : Connective) {cs : List Char} {ws : List Word}
    (h : Spelled cs ws) : Spelled (" ".toList ++ (op.sign.toList ++ (" ".toList ++ cs)))
      (op.word :: ws) := by
  cases op with
  | conj => exact (h.blank.sign rfl (by decide)).blank
  | imp => exact (h.blank.sign rfl (by decide)).blank
  | disj =>
      have hname : isName "v" = true := by decide
      exact ((Spelled.name hname).append h.blank (breaks_cons (by decide) _)).blank

/-- **The written form of a formula is read as its words.** -/
theorem spelled_render {f : Formula} (h : f.WellFormed) : Spelled f.render.toList f.words := by
  induction f with
  | falsity =>
      have hzero : isNumeral "0" = true := by decide
      exact .numeral hzero
  | atom predicate terms => exact spelled_atom h
  | neg inner ih =>
      rw [render, String.toList_append]
      exact (ih h).sign rfl (by decide)
  | join op left right ihl ihr =>
      simp only [render, String.toList_append, List.append_assoc]
      -- From the right: the last parenthesis, the sign between blanks, the first one.
      have hright : Spelled (right.render.toList ++ ")".toList)
          (right.words ++ [(.rightParen, ")")]) :=
        (ihr h.2).append (Spelled.nil.sign rfl (by decide)) (breaks_cons (by decide) _)
      exact ((ihl h.1).append (spelled_connective op hright) (breaks_cons (by decide) _)).sign rfl
        (by decide)
  | bind quantifier var body ih =>
      simp only [render, String.toList_append, List.append_assoc]
      have hword : isName quantifier.word = true := by cases quantifier <;> decide
      have hbody : Spelled (") ".toList ++ body.render.toList)
          ((.rightParen, ")") :: body.words) := (ih h.2).blank.sign rfl (by decide)
      exact (Spelled.name hword).append (((Spelled.name h.1).append hbody
        (breaks_cons (by decide) _)).sign rfl (by decide)) (breaks_cons (by decide) _)

/-- So its tokens have these words. -/
theorem map_word_tokenize_render {f : Formula} (h : f.WellFormed) :
    (Token.tokenize f.render).map Token.word = f.words := by
  have hwords := (spelled_render h).words_eq [] (by simp) (by simp [Breaks])
  rw [List.append_nil, Token.words_nil, List.append_nil] at hwords
  exact hwords

end Formula

end NaturalDeduction
