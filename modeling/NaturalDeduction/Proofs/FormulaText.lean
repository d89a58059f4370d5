/-
  NaturalDeduction.Proofs.FormulaText
  ───────────────────────────────────
  **THE TOKENS OF A WRITTEN FORMULA, and the places they fill.**

  In a proof line a formula is what reaches from its first token to its last.
  That this is the whole of its text, no more and no less, takes two facts: the
  text starts with a lexeme (`Formula.isSome_lexeme?_render`) and ends with one
  (`Formula.reachesEnd_render`).  What a formula can start with, and that it
  has neither a bar nor a colon, tells it from the other parts of a line.
-/
import NaturalDeduction.Proofs.Scanning
import NaturalDeduction.Proofs.Spelling

namespace NaturalDeduction

open Token (Divides Spelled Breaks Word isTermText termKind scan lexeme?)

/-! ## §1. Texts that their tokens fill. -/

namespace Token

/-- The last token of a text ends where the text ends. -/
def ReachesEnd (cs : List Char) : Prop :=
  ∀ offset, ∃ t ∈ (scan offset cs).getLast?, t.span.stop = offset + byteLength cs

theorem ReachesEnd.append {bs : List Char} (h : ReachesEnd bs) (hbs : Divides bs) (as : List Char) :
    ReachesEnd (as ++ bs) := by
  intro offset
  obtain ⟨t, ht, hstop⟩ := h (offset + byteLength as)
  refine ⟨t, ?_, ?_⟩
  · rw [scan_append hbs, List.getLast?_append, Option.mem_def.mp ht]
    rfl
  · rw [hstop, byteLength_append]
    omega

theorem ReachesEnd.sign {c : Char} {kind : Kind} {cs : List Char} (h : ReachesEnd cs)
    (hsign : sign? c = some kind) (hdash : '-' ∉ c :: cs) : ReachesEnd (c :: cs) := by
  intro offset
  obtain ⟨t, ht, hstop⟩ := h (offset + c.utf8Size)
  refine ⟨t, ?_, ?_⟩
  · rw [scan_sign hsign hdash, List.getLast?_cons, Option.mem_def.mp ht]
    rfl
  · rw [hstop, byteLength_cons]
    omega

theorem ReachesEnd.blank {cs : List Char} (h : ReachesEnd cs) : ReachesEnd (' ' :: cs) := by
  intro offset
  obtain ⟨t, ht, hstop⟩ := h (offset + 1)
  refine ⟨t, by rw [scan_blank]; exact ht, ?_⟩
  rw [hstop, byteLength_cons]
  show offset + 1 + byteLength cs = offset + (1 + byteLength cs)
  omega

theorem reachesEnd_of_lexeme? {cs : List Char} {kind : Kind} (h : lexeme? cs = some (kind, cs)) :
    ReachesEnd cs := by
  intro offset
  rw [scan_of_lexeme? h]
  exact ⟨_, rfl, rfl⟩

theorem reachesEnd_name {n : Name} (hn : isName n = true) : ReachesEnd n.toList := by
  have hlexeme := lexeme?_name hn List.not_mem_nil (by simp [Breaks])
  rw [List.append_nil] at hlexeme
  exact reachesEnd_of_lexeme? hlexeme

theorem reachesEnd_term {n : Name} (hn : isTermText n = true) : ReachesEnd n.toList := by
  have hlexeme := lexeme?_term hn List.not_mem_nil (by simp [Breaks])
  rw [List.append_nil] at hlexeme
  exact reachesEnd_of_lexeme? hlexeme

theorem reachesEnd_rightParen : ReachesEnd [')'] := by
  have hlexeme : lexeme? [')'] = some (.rightParen, [')']) := by decide
  exact reachesEnd_of_lexeme? hlexeme

/-- A sign is a lexeme if there is no dash behind it. -/
theorem isSome_lexeme?_of_sign {c : Char} {kind : Kind} {cs : List Char}
    (hsign : sign? c = some kind) (hdash : '-' ∉ c :: cs) : (lexeme? (c :: cs)).isSome = true := by
  obtain ⟨hblank, hdigit, hstart⟩ := class_of_sign? hsign
  rw [lexeme?_of_no_dash hblank hdash]
  simp [hdigit, hstart, hsign]

end Token

namespace Formula

open Token (ReachesEnd)

/-- The text of an atom ends with its last token. -/
theorem reachesEnd_atom {predicate : Name} {terms : List Name}
    (h : (atom predicate terms).WellFormed) :
    ReachesEnd (renderAtom predicate terms).toList := by
  have hterms := h.2.2
  rcases h.atom_cases with ⟨left, right, rfl, rfl⟩ | ⟨hid, hname⟩
  · have hright : isTermText right = true := hterms right (by simp)
    have hdash : '-' ∉ right.toList := (Spelled.term hright).no_dash
    have hrender : renderAtom identityName [left, right] = left ++ " = " ++ right := rfl
    rw [hrender, String.toList_append, String.toList_append, List.append_assoc]
    show ReachesEnd (left.toList ++ ' ' :: '=' :: ' ' :: right.toList)
    refine ReachesEnd.append ?_ (Token.divides_cons (by simp) _) _
    exact ((Token.reachesEnd_term hright).blank.sign rfl (by simp [hdash])).blank
  · cases terms with
    | nil => exact Token.reachesEnd_name hname
    | cons t ts =>
        rw [renderAtom_cons hid, String.toList_append]
        exact Token.reachesEnd_rightParen.append (Token.divides_cons (by simp) _) _

/-- **The text of a formula ends with its last token.** -/
theorem reachesEnd_render {f : Formula} (h : f.WellFormed) : ReachesEnd f.render.toList := by
  induction f with
  | falsity =>
      have hzero : isTermText "0" = true := by decide
      exact Token.reachesEnd_term hzero
  | atom predicate terms => exact reachesEnd_atom h
  | neg inner ih =>
      have hinner : inner.WellFormed := h
      have hdash : '-' ∉ inner.render.toList := (spelled_render hinner).no_dash
      rw [render, String.toList_append]
      show ReachesEnd ('~' :: inner.render.toList)
      exact (ih hinner).sign rfl (by simp [hdash])
  | join op left right ihl ihr =>
      rw [render, String.toList_append]
      exact Token.reachesEnd_rightParen.append (Token.divides_cons (by simp) _) _
  | bind quantifier var body ih =>
      have hdash : '-' ∉ body.render.toList := (spelled_render h.2).no_dash
      simp only [render, String.toList_append, List.append_assoc]
      rw [← List.append_assoc, ← List.append_assoc]
      show ReachesEnd (_ ++ ')' :: ' ' :: body.render.toList)
      refine ReachesEnd.append ?_ (Token.divides_cons (by simp) _) _
      exact (ih h.2).blank.sign rfl (by simp [hdash])

/-- **The text of a formula starts with its first token.** -/
theorem isSome_lexeme?_render {f : Formula} (h : f.WellFormed) :
    (lexeme? f.render.toList).isSome = true := by
  have hdash : '-' ∉ f.render.toList := (spelled_render h).no_dash
  cases f with
  | falsity => decide
  | atom predicate terms =>
      rw [render] at hdash ⊢
      rcases h.atom_cases with ⟨left, right, rfl, rfl⟩ | ⟨hid, hname⟩
      · have hleft : isTermText left = true := h.2.2 left (by simp)
        have hrender : (renderAtom identityName [left, right]).toList
            = left.toList ++ (" = ".toList ++ right.toList) := by
          rw [← List.append_assoc, ← String.toList_append, ← String.toList_append]
          rfl
        rw [hrender] at hdash ⊢
        rw [Token.lexeme?_term hleft (fun hmem => hdash (List.mem_append_right _ hmem))
          (breaks_cons (by decide) _)]
        rfl
      · obtain ⟨rest, hrest, hbreaks⟩ : ∃ rest, (renderAtom predicate terms).toList
            = predicate.toList ++ rest ∧ Breaks rest := by
          cases terms with
          | nil => exact ⟨[], (List.append_nil _).symm, by simp [Breaks]⟩
          | cons t ts =>
              refine ⟨'(' :: (", ".intercalate (t :: ts) ++ ")").toList, ?_,
                breaks_cons (by decide) _⟩
              rw [renderAtom_cons hid]
              simp
        rw [hrest] at hdash ⊢
        rw [Token.lexeme?_name hname (fun hmem => hdash (List.mem_append_right _ hmem)) hbreaks]
        rfl
  | neg inner =>
      rw [render, String.toList_append] at hdash ⊢
      exact Token.isSome_lexeme?_of_sign rfl hdash
  | join op left right =>
      simp only [render, String.toList_append, List.append_assoc] at hdash ⊢
      exact Token.isSome_lexeme?_of_sign rfl hdash
  | bind quantifier var body =>
      have hword : isName quantifier.word = true := by cases quantifier <;> decide
      simp only [render, String.toList_append, List.append_assoc] at hdash ⊢
      rw [Token.lexeme?_name hword (fun hmem => hdash (List.mem_append_right _ hmem))
        (breaks_cons (by decide) _)]
      rfl

/-! ## §2. The tokens of a written formula. -/

/-- The words do not depend on where the formula stands. -/
theorem map_word_scan_render {f : Formula} (h : f.WellFormed) (offset : Nat) :
    (scan offset f.render.toList).map Token.word = f.words := by
  rw [Token.map_word_scan]
  exact map_word_tokenize_render h

/-- A term is an identifier, a number or a `0`. -/
theorem kind_termWord (t : Name) :
    (termWord t).1 = .identifier ∨ (termWord t).1 = .number ∨ (termWord t).1 = .falsity := by
  unfold termWord termKind Token.numeralKind
  dsimp only
  split
  · exact Or.inl rfl
  · split
    · exact Or.inr (Or.inr rfl)
    · exact Or.inr (Or.inl rfl)

/-- Neither a bar nor a colon is a word of a formula. -/
theorem kind_of_mem_words {f : Formula} {w : Word} (hw : w ∈ f.words) :
    w.1 ≠ .bar ∧ w.1 ≠ .colon := by
  have hterm : ∀ t, (termWord t).1 ≠ .bar ∧ (termWord t).1 ≠ .colon := by
    intro t
    rcases kind_termWord t with hkind | hkind | hkind
    all_goals
      rw [hkind]
      decide
  have hterms : ∀ ts, ∀ w ∈ moreTermWords ts, w.1 ≠ .bar ∧ w.1 ≠ .colon := by
    intro ts w hw
    obtain ⟨t, -, hmem⟩ := List.mem_flatMap.mp hw
    rcases List.mem_cons.mp hmem with rfl | hmem
    · decide
    · rw [List.mem_singleton.mp hmem]
      exact hterm t
  induction f with
  | falsity =>
      rw [List.mem_singleton.mp hw]
      decide
  | atom predicate terms =>
      rw [words] at hw
      split at hw
      · next left right _ =>
          simp only [identityWords, List.mem_cons, List.not_mem_nil, or_false] at hw
          rcases hw with rfl | rfl | rfl
          · exact hterm left
          · decide
          · exact hterm right
      · cases terms with
        | nil =>
            rw [List.mem_singleton.mp hw]
            simp
        | cons t ts =>
            simp only [atomWords, List.mem_cons, List.mem_append, List.not_mem_nil, or_false] at hw
            rcases hw with rfl | rfl | rfl | hmore | rfl
            · simp
            · decide
            · exact hterm t
            · exact hterms ts w hmore
            · decide
  | neg inner ih =>
      rcases List.mem_cons.mp hw with rfl | hinner
      · decide
      · exact ih hinner
  | join op left right ihl ihr =>
      simp only [words, List.mem_cons, List.mem_append, List.not_mem_nil, or_false] at hw
      rcases hw with rfl | hleft | rfl | hright | rfl
      · decide
      · exact ihl hleft
      · cases op <;> decide
      · exact ihr hright
      · decide
  | bind quantifier var body ih =>
      simp only [words, List.mem_cons] at hw
      rcases hw with rfl | rfl | rfl | rfl | hbody
      · simp
      · decide
      · simp
      · decide
      · exact ih hbody

/-- What a formula can start with. -/
theorem head_words (f : Formula) : ∃ w ∈ f.words.head?, w.1 = .identifier ∨ w.1 = .number
    ∨ w.1 = .falsity ∨ w.1 = .tilde ∨ w.1 = .leftParen := by
  cases f with
  | falsity => exact ⟨_, rfl, by decide⟩
  | atom predicate terms =>
      rw [words]
      split
      · next left right _ =>
          refine ⟨termWord left, rfl, ?_⟩
          rcases kind_termWord left with hkind | hkind | hkind
          all_goals simp [hkind]
      · cases terms with
        | nil => exact ⟨_, rfl, Or.inl rfl⟩
        | cons t ts => exact ⟨_, rfl, Or.inl rfl⟩
  | neg inner => exact ⟨_, rfl, by decide⟩
  | join op left right => exact ⟨_, rfl, by decide⟩
  | bind quantifier var body => exact ⟨_, rfl, Or.inl rfl⟩

end Formula

end NaturalDeduction
