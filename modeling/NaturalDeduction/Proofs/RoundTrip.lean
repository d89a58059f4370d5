/-
  NaturalDeduction.Proofs.RoundTrip
  ─────────────────────────────────
  **WHAT CAN BE READ CAN BE WRITTEN DOWN, AND READ BACK.**

  The words of a well formed formula derive it (`Derives.of_words`, along the
  formula: a joined pair stands in parentheses, so precedence plays no part),
  and what is derived is read.  The other way, every formula that a reader finds
  is derived from tokens of the text, and whatever is derived from tokens that
  are written as their kinds ask is well formed (`Derives.wellFormed`, along the
  derivation).  So the written form has an exact inverse: the well formed
  formulas are the ones that some text is read as, and each of them is what its
  own written form is read as.
-/
import NaturalDeduction.Proofs.GrammarReading
import NaturalDeduction.Proofs.Spelling

namespace NaturalDeduction.Formula

open Token (isTermText word)

/-! ## §1. The words of a formula derive it. -/

/-- The word for a term is read as a term. -/
theorem isTerm_of_word {t : Token} {n : Name} (h : t.word = termWord n) :
    t.isTerm = true ∧ t.text = n := by
  obtain ⟨hkind, htext⟩ := Prod.mk.inj h
  refine ⟨?_, htext⟩
  unfold Token.isTerm
  rw [hkind]
  unfold Token.termKind Token.numeralKind
  split
  · decide
  · split <;> decide

/-- The words for further terms go on with a list of terms. -/
theorem DerivesTerms.append_words {ts us : List Token} {names more : List Name}
    (h : DerivesTerms ts names) (hw : us.map word = moreTermWords more) :
    DerivesTerms (ts ++ us) (names ++ more) := by
  -- On the terms still to come: a list of terms grows at its end.
  induction more generalizing ts us names with
  | nil =>
      obtain rfl : us = [] := List.map_eq_nil_iff.mp hw
      simpa using h
  | cons n more ih =>
      obtain ⟨comma, us₁, rfl, hcomma, hw₁⟩ := List.map_eq_cons_iff.mp hw
      obtain ⟨t, us₂, rfl, ht, hw₂⟩ := List.map_eq_cons_iff.mp hw₁
      obtain ⟨hterm, rfl⟩ := isTerm_of_word ht
      have hmore := ih (h.more (Prod.mk.inj hcomma).1 hterm) hw₂
      simpa using hmore

/-- The words of an identity. -/
theorem Derives.of_identityWords {ts : List Token} {left right : Name}
    (hw : ts.map word = identityWords left right) :
    Derives .primary ts (Formula.identity left right) := by
  obtain ⟨l, ts₁, rfl, hl, hw₁⟩ := List.map_eq_cons_iff.mp hw
  obtain ⟨sign, ts₂, rfl, hsign, hw₂⟩ := List.map_eq_cons_iff.mp hw₁
  obtain ⟨r, ts₃, rfl, hr, hnil⟩ := List.map_eq_cons_iff.mp hw₂
  obtain rfl := List.map_eq_nil_iff.mp hnil
  obtain ⟨hleft, rfl⟩ := isTerm_of_word hl
  obtain ⟨hright, rfl⟩ := isTerm_of_word hr
  exact .identity hleft (Prod.mk.inj hsign).1 hright

/-- The words of any other atom.  The word of a quantifier takes no terms. -/
theorem Derives.of_atomWords {ts : List Token} {predicate : Name} {terms : List Name}
    (hw : ts.map word = atomWords predicate terms)
    (hword : predicate = Quantifier.all.word ∨ predicate = Quantifier.ex.word → terms = []) :
    Derives .primary ts (atom predicate terms) := by
  cases terms with
  | nil =>
      obtain ⟨t, ts₁, rfl, ht, hnil⟩ := List.map_eq_cons_iff.mp hw
      obtain rfl := List.map_eq_nil_iff.mp hnil
      obtain ⟨hkind, rfl⟩ := Prod.mk.inj ht
      exact .name hkind
  | cons n names =>
      obtain ⟨t, ts₁, rfl, ht, hw₁⟩ := List.map_eq_cons_iff.mp hw
      obtain ⟨opening, ts₂, rfl, hopening, hw₂⟩ := List.map_eq_cons_iff.mp hw₁
      obtain ⟨first, ts₃, rfl, hfirst, hw₃⟩ := List.map_eq_cons_iff.mp hw₂
      obtain ⟨us, ts₄, rfl, hmore, hw₄⟩ := List.map_eq_append_iff.mp hw₃
      obtain ⟨close, ts₅, rfl, hclose, hnil⟩ := List.map_eq_cons_iff.mp hw₄
      obtain rfl := List.map_eq_nil_iff.mp hnil
      obtain ⟨hkind, rfl⟩ := Prod.mk.inj ht
      obtain ⟨hterm, rfl⟩ := isTerm_of_word hfirst
      have hterms : DerivesTerms (first :: us) (first.text :: names) :=
        (DerivesTerms.one hterm).append_words hmore
      refine .apply hkind (fun hall => ?_) (fun hex => ?_) (Prod.mk.inj hopening).1
        (.some hterms) (Prod.mk.inj hclose).1
      · exact List.cons_ne_nil _ _ (hword (.inl hall))
      · exact List.cons_ne_nil _ _ (hword (.inr hex))

/-- What is joined by no sign is an implication. -/
theorem Derives.ofUnary_implication {ts : List Token} {f : Formula} (h : Derives .unary ts f) :
    Derives .implication ts f :=
  .ofDisjunction (.ofConjunction (.ofUnary h))

/-- A pair around the word of a connective. -/
theorem Derives.of_join {op : Connective} {ts us : List Token} {t : Token} {f g : Formula}
    (hf : Derives .unary ts f) (ht : t.word = op.word) (hg : Derives .unary us g) :
    Derives .implication (ts ++ t :: us) (join op f g) := by
  obtain ⟨hkind, htext⟩ := Prod.mk.inj ht
  cases op with
  | conj => exact .ofDisjunction (.ofConjunction (.conj (.ofUnary hf) hkind hg))
  | disj =>
      have hsign : t.isWord Connective.disj.sign = true := by
        simp [Token.isWord, hkind, htext, Connective.sign]
      exact .ofDisjunction (.disj (.ofConjunction (.ofUnary hf)) hsign (.ofUnary hg))
  | imp => exact .imp (.ofConjunction (.ofUnary hf)) hkind hg.ofUnary_implication

/-- **The words of a well formed formula derive it.** -/
theorem Derives.of_words {f : Formula} (hf : f.WellFormed) {ts : List Token}
    (hw : ts.map word = f.words) : Derives .unary ts f := by
  induction f generalizing ts with
  | falsity =>
      obtain ⟨t, ts₁, rfl, ht, hnil⟩ := List.map_eq_cons_iff.mp hw
      obtain rfl := List.map_eq_nil_iff.mp hnil
      exact .ofPrimary (.falsity (Prod.mk.inj ht).1)
  | atom predicate terms =>
      rcases hf.atom_cases with ⟨left, right, rfl, rfl⟩ | ⟨hid, -⟩
      · exact .ofPrimary (.of_identityWords hw)
      · rw [words_atom hid] at hw
        exact .ofPrimary (.of_atomWords hw hf.2.1)
  | neg inner ih =>
      obtain ⟨t, ts₁, rfl, ht, hw₁⟩ := List.map_eq_cons_iff.mp hw
      exact .neg (Prod.mk.inj ht).1 (ih hf hw₁)
  | join op left right ihl ihr =>
      obtain ⟨opening, ts₁, rfl, hopening, hw₁⟩ := List.map_eq_cons_iff.mp hw
      obtain ⟨ls, ts₂, rfl, hl, hw₂⟩ := List.map_eq_append_iff.mp hw₁
      obtain ⟨sign, ts₃, rfl, hsign, hw₃⟩ := List.map_eq_cons_iff.mp hw₂
      obtain ⟨rs, ts₄, rfl, hr, hw₄⟩ := List.map_eq_append_iff.mp hw₃
      obtain ⟨close, ts₅, rfl, hclose, hnil⟩ := List.map_eq_cons_iff.mp hw₄
      obtain rfl := List.map_eq_nil_iff.mp hnil
      have hpair : Derives .implication (ls ++ sign :: rs) (join op left right) :=
        .of_join (ihl hf.1 hl) hsign (ihr hf.2 hr)
      have hparen := Derives.paren (Prod.mk.inj hopening).1 hpair (Prod.mk.inj hclose).1
      rw [List.append_assoc, List.cons_append] at hparen
      exact .ofPrimary hparen
  | bind quantifier var body ih =>
      obtain ⟨t, ts₁, rfl, ht, hw₁⟩ := List.map_eq_cons_iff.mp hw
      obtain ⟨opening, ts₂, rfl, hopening, hw₂⟩ := List.map_eq_cons_iff.mp hw₁
      obtain ⟨x, ts₃, rfl, hx, hw₃⟩ := List.map_eq_cons_iff.mp hw₂
      obtain ⟨close, ts₄, rfl, hclose, hw₄⟩ := List.map_eq_cons_iff.mp hw₃
      obtain ⟨hkind, htext⟩ := Prod.mk.inj ht
      obtain ⟨hvar, rfl⟩ := Prod.mk.inj hx
      have hword : t.isWord quantifier.word = true := by simp [Token.isWord, hkind, htext]
      exact .bind quantifier hword (Prod.mk.inj hopening).1 hvar (Prod.mk.inj hclose).1
        (ih hf.2 hw₄)

/-- **A formula that was written down is read back.** -/
theorem parseExact_render {f : Formula} (hf : f.WellFormed) : parseExact f.render = .ok f := by
  have hderives := Derives.of_words hf (map_word_tokenize_render hf)
  exact parseExact_eq_ok_iff.mpr
    ((implication_yields_iff_derives _).mpr hderives.ofUnary_implication)

/-! ## §2. Names and terms. -/

/-- Every token is written as its kind asks. -/
def AllWritten (tokens : List Token) : Prop := ∀ t ∈ tokens, t.WellWritten

@[simp] theorem allWritten_cons {t : Token} {ts : List Token} :
    AllWritten (t :: ts) ↔ t.WellWritten ∧ AllWritten ts := by simp [AllWritten]

@[simp] theorem allWritten_append {ts us : List Token} :
    AllWritten (ts ++ us) ↔ AllWritten ts ∧ AllWritten us := by
  simp [AllWritten, or_imp, forall_and]

/-- A well written term is a name or a numeral. -/
theorem isTermText_of_isTerm {t : Token} (hw : t.WellWritten) (ht : t.isTerm = true) :
    isTermText t.text = true := by
  unfold Token.isTerm at ht
  simp only [Bool.or_eq_true, decide_eq_true_eq] at ht
  unfold isTermText
  rw [Bool.or_eq_true]
  rcases ht with (hname | hnumber) | hfalsity
  · exact Or.inl (hw.1 hname)
  · exact Or.inr (hw.2 (Or.inl hnumber))
  · exact Or.inr (hw.2 (Or.inr hfalsity))

/-- Are all the names terms? -/
def AllTerms (names : List Name) : Prop := ∀ n ∈ names, isTermText n = true

theorem DerivesTerms.allTerms {ts : List Token} {names : List Name} (h : DerivesTerms ts names)
    (hw : AllWritten ts) : AllTerms names := by
  induction h with
  | one ht =>
      intro n hn
      rw [List.mem_singleton.mp hn]
      exact isTermText_of_isTerm (allWritten_cons.mp hw).1 ht
  | more _ _ ht ih =>
      obtain ⟨hbefore, hlast⟩ := allWritten_append.mp hw
      intro n hn
      rcases List.mem_append.mp hn with hn | hn
      · exact ih hbefore n hn
      · rw [List.mem_singleton.mp hn]
        exact isTermText_of_isTerm (hlast _ (by simp)) ht

theorem DerivesArguments.allTerms {ts : List Token} {names : List Name}
    (h : DerivesArguments ts names) (hw : AllWritten ts) : AllTerms names := by
  cases h with
  | none => simp [AllTerms]
  | some hterms => exact hterms.allTerms hw

/-! ## §3. All formulas. -/

theorem wellFormed_identity {left right : Name} (hl : isTermText left = true)
    (hr : isTermText right = true) : (identity left right).WellFormed := by
  refine ⟨by rw [if_pos rfl]; rfl, fun hword => ?_, ?_⟩
  · exact absurd hword (by decide)
  · intro n hn
    rcases List.mem_cons.mp hn with rfl | hn
    · exact hl
    · rw [List.mem_singleton.mp hn]
      exact hr

/-- A name is not `=`. -/
theorem ne_identityName_of_isName {n : Name} (h : isName n = true) : n ≠ identityName := by
  rintro rfl
  exact absurd h (by decide +kernel)

theorem wellFormed_atom {predicate : Name} {terms : List Name} (hname : isName predicate = true)
    (hterms : AllTerms terms)
    (hword : predicate = Quantifier.all.word ∨ predicate = Quantifier.ex.word → terms = []) :
    (atom predicate terms).WellFormed := by
  refine ⟨?_, hword, hterms⟩
  rw [if_neg (ne_identityName_of_isName hname)]
  exact hname

/-- **What is derived from well written tokens is well formed.** -/
theorem Derives.wellFormed {level : Level} {ts : List Token} {f : Formula}
    (h : Derives level ts f) (hw : AllWritten ts) : f.WellFormed := by
  induction h with
  | ofDisjunction _ ih | ofConjunction _ ih | ofUnary _ ih | ofPrimary _ ih => exact ih hw
  | imp _ _ _ ihl ihr | disj _ _ _ ihl ihr | conj _ _ _ ihl ihr =>
      obtain ⟨hl, hr⟩ := allWritten_append.mp hw
      exact ⟨ihl hl, ihr (allWritten_cons.mp hr).2⟩
  | neg _ _ ih => exact ih (allWritten_cons.mp hw).2
  | bind _ _ _ hx _ _ ih =>
      simp only [allWritten_cons] at hw
      obtain ⟨-, -, hvar, -, hbody⟩ := hw
      exact ⟨hvar.1 hx, ih hbody⟩
  | paren _ _ _ ih => exact ih (allWritten_append.mp (allWritten_cons.mp hw).2).1
  | falsity _ => trivial
  | identity hl _ hr =>
      exact wellFormed_identity (isTermText_of_isTerm (hw _ (by simp)) hl)
        (isTermText_of_isTerm (hw _ (by simp)) hr)
  | name ht =>
      exact wellFormed_atom ((hw _ List.mem_cons_self).1 ht) (by simp [AllTerms]) fun _ => rfl
  | apply ht hall hex _ hargs _ =>
      have hwritten : AllWritten _ := (allWritten_append.mp (allWritten_cons.mp
        (allWritten_cons.mp hw).2).2).1
      refine wellFormed_atom ((hw _ List.mem_cons_self).1 ht) (hargs.allTerms hwritten) ?_
      -- The word of a quantifier takes no terms.
      rintro (hword | hword)
      · exact absurd hword hall
      · exact absurd hword hex

/-! ## §4. Whole texts. -/

theorem allWritten_tokenize (text : String) : AllWritten (Token.tokenize text) :=
  fun _ ht => Token.wellWritten_of_mem_scan ht

/-- Every formula found at the front of a text is well formed. -/
theorem wellFormed_of_implication {text : String} {stop : Nat}
    {p : Parsed Formula (Token.tokenize text)}
    (h : implication stop (Token.tokenize text) = .ok p) : p.value.WellFormed := by
  obtain ⟨used, htokens, hderives⟩ := implication_derives h
  have hwritten := allWritten_tokenize text
  rw [htokens] at hwritten
  exact hderives.wellFormed (allWritten_append.mp hwritten).1

theorem wellFormed_of_parse {text : String} {f : Formula} (h : parse text = .ok f) :
    f.WellFormed := by
  obtain ⟨p, hp, rfl⟩ := parse_eq_ok h
  exact wellFormed_of_implication hp

theorem wellFormed_of_parseExact {text : String} {f : Formula} (h : parseExact text = .ok f) :
    f.WellFormed := by
  obtain ⟨hlt, hp⟩ := parseExact_eq_ok_iff.mp h
  exact wellFormed_of_implication hp

/-- **Round trip.**  A well formed formula is what its written form is read as,
and whatever is read from a text, to its end or not, is well formed. -/
theorem render_parse_round_trip :
    (∀ f : Formula, f.WellFormed → parseExact f.render = .ok f)
      ∧ ∀ (text : String) (f : Formula),
        parse text = .ok f ∨ parseExact text = .ok f → f.WellFormed := by
  refine ⟨fun f hf => parseExact_render hf, fun text f h => ?_⟩
  rcases h with h | h
  · exact wellFormed_of_parse h
  · exact wellFormed_of_parseExact h

/-- The words of the language serve as names, and `0` as a term. -/
theorem render_parse_round_trip_words :
    parseExact (disj (atom "v" []) (all "exists" (neg (identity "0" "v'")))).render
      = .ok (disj (atom "v" []) (all "exists" (neg (identity "0" "v'")))) :=
  render_parse_round_trip.1 _ (by decide +kernel)

end NaturalDeduction.Formula
