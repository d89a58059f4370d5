/-
  NaturalDeduction.Proofs.Lexemes
  ───────────────────────────────
  **WHAT A TEXT IS READ AS**, without the places of the tokens.

  Where a lexeme ends depends on what follows, so a text is said to be spelled
  as some words only with all that may follow it in view (`Spelled`): no dash,
  since every rule name has one, and no character that would make the last
  name longer.  Main statements:

    • `wellWritten_of_mem_scan` — an identifier, a number or a `0` is written
      like one,
    • `Spelled.sign`, `Spelled.blank`, `Spelled.name`, `Spelled.numeral`,
      `Spelled.append` — how texts are put together from words.
-/
import NaturalDeduction.Formula.Basic
import NaturalDeduction.Token.Scan

namespace NaturalDeduction

/-! ## §1. Character classes. -/

/-- Two tables have no code point in common. -/
def tablesApart (as bs : List (Nat × Nat)) : Bool :=
  as.all fun a => bs.all fun b => decide (a.2 < b.1) || decide (b.2 < a.1)

theorem not_inRanges_of_tablesApart {as bs : List (Nat × Nat)} (h : tablesApart as bs = true)
    {code : Nat} (ha : inRanges code as = true) : inRanges code bs = false := by
  rw [Bool.eq_false_iff]
  intro hb
  obtain ⟨r, hr, hlow, hhigh⟩ := exists_of_inRanges ha
  obtain ⟨r', hr', hlow', hhigh'⟩ := exists_of_inRanges hb
  have hapart := List.all_eq_true.mp (List.all_eq_true.mp h r hr) r' hr'
  simp only [Bool.or_eq_true, decide_eq_true_eq] at hapart
  omega

/-- A letter is no blank. -/
theorem isBlank_of_isAlphabetic {c : Char} (h : isAlphabetic c = true) : isBlank c = false :=
  not_inRanges_of_tablesApart (by decide +kernel) h

/-- The decimal digits as a table. -/
def digitRanges : List (Nat × Nat) := [(0x30, 0x39)]

theorem inRanges_of_isDigit {c : Char} (h : c.isDigit = true) :
    inRanges c.toNat digitRanges = true := by
  obtain ⟨hlow, hhigh⟩ := Char.isDigit_iff_toNat.mp h
  have hlow' : ¬ c.toNat < 0x30 := Nat.not_lt.mpr hlow
  have hhigh' : c.toNat ≤ 0x39 := hhigh
  simp [digitRanges, inRanges, hlow', hhigh']

/-- A digit is no letter. -/
theorem isAlphabetic_of_isDigit {c : Char} (h : c.isDigit = true) : isAlphabetic c = false :=
  not_inRanges_of_tablesApart (by decide +kernel) (inRanges_of_isDigit h)

/-- A digit is no blank. -/
theorem isBlank_of_isDigit {c : Char} (h : c.isDigit = true) : isBlank c = false :=
  not_inRanges_of_tablesApart (by decide) (inRanges_of_isDigit h)

/-- A digit is a numeral. -/
theorem isNumeric_of_isDigit {c : Char} (h : c.isDigit = true) : isNumeric c = true := by
  obtain ⟨hlow, hhigh⟩ := Char.isDigit_iff_toNat.mp h
  have hlow' : ¬ c.toNat < 0x30 := Nat.not_lt.mpr hlow
  have hhigh' : c.toNat ≤ 0x39 := hhigh
  -- The digits are the first range of the table.
  unfold isNumeric numericRanges
  rw [inRanges, if_neg hlow', Bool.or_eq_true]
  left
  exact decide_eq_true hhigh'

/-- Is the text an identifier: a letter, then letters, numerals or `'`? -/
def isName (n : Name) : Bool :=
  match n.toList with
  | [] => false
  | c :: cs => Token.isNameStart c && cs.all Token.isNameRest

/-- Is the text a run of digits, one at least? -/
def isNumeral (n : Name) : Bool := !n.toList.isEmpty && n.toList.all Char.isDigit

namespace Token

/-- A blank stands in no name. -/
theorem isNameRest_of_isBlank {c : Char} (h : isBlank c = true) : isNameRest c = false := by
  have hletter : isAlphabetic c = false := not_inRanges_of_tablesApart (by decide +kernel) h
  have hnumeral : isNumeric c = false := not_inRanges_of_tablesApart (by decide) h
  have hquote : c ≠ '\'' := by
    rintro rfl
    exact absurd h (by decide)
  simp [isNameRest, hletter, hnumeral, hquote]

/-! ## §2. One lexeme. -/

/-- Every rule name has a dash, so there is none in a text without dashes. -/
theorem ruleName?_eq_none {cs : List Char} (h : '-' ∉ cs) : ruleName? cs = none := by
  have hdash : ∀ name ∈ ruleNames, '-' ∈ name := by decide
  unfold ruleName?
  rw [List.find?_eq_none]
  intro name hname hmatch
  have hpre : name <+: cs := List.isPrefixOf_iff_prefix.mp (Bool.and_eq_true_iff.mp hmatch).1
  exact h (hpre.mem (hdash name hname))

theorem ne_nil_of_mem_ruleNames : ∀ name ∈ ruleNames, name ≠ [] := by decide

/-- There is none where no rule name starts with the next character, either. -/
theorem ruleName?_of_head {c : Char} (h : ∀ name ∈ ruleNames, name.head? ≠ some c)
    (rest : List Char) : ruleName? (c :: rest) = none := by
  unfold ruleName?
  rw [List.find?_eq_none]
  intro name hname hmatch
  have hpre : name <+: c :: rest :=
    List.isPrefixOf_iff_prefix.mp (Bool.and_eq_true_iff.mp hmatch).1
  cases name with
  | nil => exact ne_nil_of_mem_ruleNames _ hname rfl
  | cons d ds => exact h _ hname (congrArg some (List.cons_prefix_cons.mp hpre).1)

/-- **The lexeme at the start of a text without dashes.** -/
theorem lexeme?_of_no_dash {c : Char} {rest : List Char} (hblank : isBlank c = false)
    (hdash : '-' ∉ c :: rest) :
    lexeme? (c :: rest) =
      if c.isDigit then
        some (if c :: rest.takeWhile Char.isDigit = ['0'] then .falsity else .number,
          c :: rest.takeWhile Char.isDigit)
      else if isNameStart c then some (.identifier, c :: rest.takeWhile isNameRest)
      else (sign? c).map fun kind => (kind, [c]) := by
  have hc : c ≠ '-' := fun heq => hdash (by rw [heq]; exact List.mem_cons_self)
  have hhead : rest.head? ≠ some '-' := fun heq =>
    hdash (List.mem_cons_of_mem _ (List.mem_of_mem_head? heq))
  -- Turnstiles, rule names and dashed words all need a dash.
  rw [lexeme?]
  simp [hblank, hc, hhead, ruleName?_eq_none hdash]

/-- A token whose text is what its kind asks for. -/
def WellWritten (t : Token) : Prop :=
  (t.kind = .identifier → isName t.text = true)
    ∧ (t.kind = .number ∨ t.kind = .falsity → isNumeral t.text = true)

theorem isName_cons {c : Char} {rest : List Char} (hc : isNameStart c = true) :
    isName (String.ofList (c :: rest.takeWhile isNameRest)) = true := by
  simp [isName, hc]

theorem isNumeral_cons {c : Char} {rest : List Char} (hc : c.isDigit = true) :
    isNumeral (String.ofList (c :: rest.takeWhile Char.isDigit)) = true := by
  simp [isNumeral, hc]

/-- Nothing is asked of the other kinds. -/
theorem WellWritten.of_other {t : Token} (hname : t.kind ≠ .identifier)
    (hnumber : t.kind ≠ .number) (hfalsity : t.kind ≠ .falsity) : WellWritten t :=
  ⟨fun h => absurd h hname, fun h => h.elim (absurd · hnumber) (absurd · hfalsity)⟩

/-- A sign is neither an identifier nor a number. -/
theorem kind_of_sign? {c : Char} {kind : Kind} (h : sign? c = some kind) :
    kind ≠ .identifier ∧ kind ≠ .number ∧ kind ≠ .falsity := by
  unfold sign? at h
  split at h <;> simp_all <;> subst h <;> decide

/-- **What a lexeme is tells how it is written.** -/
theorem wellWritten_of_lexeme? {cs lexeme : List Char} {kind : Kind}
    (h : lexeme? cs = some (kind, lexeme)) (span : Span) :
    WellWritten ⟨kind, String.ofList lexeme, span⟩ := by
  have hother : ∀ {kind' : Kind} {lexeme' : List Char},
      kind' ≠ .identifier ∧ kind' ≠ .number ∧ kind' ≠ .falsity →
      some (kind', lexeme') = some (kind, lexeme) →
      WellWritten ⟨kind, String.ofList lexeme, span⟩ := by
    rintro kind' lexeme' ⟨hname, hnumber, hfalsity⟩ heq
    obtain ⟨rfl, -⟩ := Prod.mk.inj (Option.some.inj heq)
    exact .of_other hname hnumber hfalsity
  unfold lexeme? at h
  split at h
  · exact absurd h (by simp)
  · next c rest =>
      split at h
      · exact absurd h (by simp)
      · split at h
        · exact hother (by decide) h
        · split at h
          · exact hother (by decide) h
          · split at h
            · exact hother (by decide) h
            · split at h
              · next hdigit =>
                  obtain ⟨rfl, rfl⟩ := Prod.mk.inj (Option.some.inj h)
                  refine ⟨fun hkind => ?_, fun _ => isNumeral_cons hdigit⟩
                  -- A run of digits is a number or a `0`.
                  exfalso
                  revert hkind
                  dsimp only
                  split <;> decide
              · split at h
                · next hstart =>
                    obtain ⟨rfl, rfl⟩ := Prod.mk.inj (Option.some.inj h)
                    refine ⟨fun _ => isName_cons hstart, fun hkind => ?_⟩
                    rcases hkind with hkind | hkind <;> exact Kind.noConfusion hkind
                · obtain ⟨kind', hsign, heq⟩ := Option.map_eq_some_iff.mp h
                  exact hother (kind_of_sign? hsign) (congrArg some heq)

/-- The tokens of a text are written as their kinds ask. -/
theorem wellWritten_of_mem_scan {t : Token} {offset : Nat} {cs : List Char}
    (h : t ∈ scan offset cs) : t.WellWritten := by
  fun_induction scan offset cs with
  | case1 => exact absurd h (by simp)
  | case2 offset c rest hnone ih => exact ih h
  | case3 offset c rest kind lexeme hlexeme stop ih =>
      rcases List.mem_cons.mp h with hfirst | hrest
      · rw [hfirst]
        exact wellWritten_of_lexeme? hlexeme _
      · exact ih hrest

/-! ## §3. The words of a text. -/

/-- A word: the kind of a token and its text. -/
abbrev Word := Kind × String

/-- A token without its place. -/
def word (t : Token) : Word := (t.kind, t.text)

/-- The words of a text. -/
def words (cs : List Char) : List Word := (scan 0 cs).map word

/-- The words do not depend on where a text starts. -/
theorem map_word_scan (offset : Nat) (cs : List Char) : (scan offset cs).map word = words cs := by
  unfold words
  generalize 0 = start
  fun_induction scan offset cs generalizing start with
  | case1 => rw [scan]
  | case2 offset c rest hnone ih =>
      rw [scan.eq_2, hnone]
      exact ih _
  | case3 offset c rest kind lexeme hlexeme stop ih =>
      rw [scan.eq_2, hlexeme, List.map_cons, List.map_cons, ih]
      rfl

@[simp] theorem words_nil : words [] = [] := by
  rw [words, scan, List.map_nil]

/-- What starts no lexeme is passed over. -/
theorem words_cons_of_none {c : Char} {rest : List Char} (h : lexeme? (c :: rest) = none) :
    words (c :: rest) = words rest := by
  rw [words, scan.eq_2, h]
  exact map_word_scan _ rest

/-- A lexeme is a word, and the words behind it are those of the rest. -/
theorem words_cons_of_some {c : Char} {tail rest : List Char} {kind : Kind}
    (h : lexeme? (c :: (tail ++ rest)) = some (kind, c :: tail)) :
    words (c :: (tail ++ rest)) = (kind, String.ofList (c :: tail)) :: words rest := by
  rw [words, scan.eq_2, h]
  -- The scan goes on behind the lexeme.
  show _ :: (scan _ ((tail ++ rest).drop tail.length)).map word = _
  rw [map_word_scan, List.drop_left]
  rfl

/-! ## §4. Texts that are spelled as some words. -/

/-- A text that does not make a name longer that stands before it. -/
def Breaks (cs : List Char) : Prop := ∀ c ∈ cs.head?, isNameRest c = false

/-- **A text is spelled as some words** if it has no dash, and whatever comes
after it without a dash, and without making its last name longer, only adds
words to these. -/
structure Spelled (cs : List Char) (ws : List Word) : Prop where
  no_dash : '-' ∉ cs
  words_eq : ∀ rest, '-' ∉ rest → Breaks rest → words (cs ++ rest) = ws ++ words rest

theorem Spelled.nil : Spelled [] [] := ⟨by simp, fun _ _ _ => rfl⟩

/-- A sign is in no other class of characters. -/
theorem class_of_sign? {c : Char} {kind : Kind} (h : sign? c = some kind) :
    isBlank c = false ∧ c.isDigit = false ∧ isNameStart c = false := by
  unfold sign? at h
  split at h
  all_goals first | decide | exact absurd h (by simp)

/-- A sign before a text. -/
theorem Spelled.sign {c : Char} {kind : Kind} {cs : List Char} {ws : List Word}
    (h : Spelled cs ws) (hsign : sign? c = some kind) (hc : c ≠ '-') :
    Spelled (c :: cs) ((kind, String.singleton c) :: ws) := by
  obtain ⟨hblank, hdigit, hstart⟩ := class_of_sign? hsign
  refine ⟨by simp [h.no_dash, Ne.symm hc], fun rest hrest hbreaks => ?_⟩
  have hdash : '-' ∉ c :: (cs ++ rest) := by simp [h.no_dash, Ne.symm hc, hrest]
  have hlexeme : lexeme? (c :: ([] ++ (cs ++ rest))) = some (kind, [c]) := by
    rw [List.nil_append, lexeme?_of_no_dash hblank hdash]
    simp [hdigit, hstart, hsign]
  rw [List.cons_append, List.cons_append, ← h.words_eq rest hrest hbreaks]
  exact words_cons_of_some hlexeme

/-- A blank before a text. -/
theorem Spelled.blank {cs : List Char} {ws : List Word} (h : Spelled cs ws) :
    Spelled (' ' :: cs) ws := by
  refine ⟨by simp [h.no_dash], fun rest hrest hbreaks => ?_⟩
  have hlexeme : lexeme? (' ' :: (cs ++ rest)) = none := by
    rw [lexeme?, if_pos (by decide)]
  rw [List.cons_append, words_cons_of_none hlexeme]
  exact h.words_eq rest hrest hbreaks

/-- One text after another that does not make its last name longer. -/
theorem Spelled.append {as bs : List Char} {vs ws : List Word} (ha : Spelled as vs)
    (hb : Spelled bs ws) (hbreaks : Breaks bs) : Spelled (as ++ bs) (vs ++ ws) := by
  refine ⟨by simp [ha.no_dash, hb.no_dash], fun rest hrest hbreaksRest => ?_⟩
  have hboth : Breaks (bs ++ rest) := by
    cases bs with
    | nil => exact hbreaksRest
    | cons c bs => exact hbreaks
  have hdash : '-' ∉ bs ++ rest := by simp [hb.no_dash, hrest]
  rw [List.append_assoc, ha.words_eq _ hdash hboth, hb.words_eq rest hrest hbreaksRest,
    List.append_assoc]

/-- A run of characters or tokens of one class ends where another class begins. -/
theorem takeWhile_append_of_head {α : Type} {p : α → Bool} {cs rest : List α}
    (hcs : ∀ c ∈ cs, p c = true) (hrest : ∀ c ∈ rest.head?, p c = false) :
    (cs ++ rest).takeWhile p = cs := by
  rw [List.takeWhile_append_of_pos hcs]
  cases rest with
  | nil => simp
  | cons c rest => simp [hrest c rfl]

/-- In a name there are only the characters of names. -/
theorem not_mem_of_isName {n : Name} (hn : isName n = true) {c : Char}
    (hc : isNameRest c = false) : c ∉ n.toList := by
  have hstart : isNameStart c = false := by
    rw [isNameRest, Bool.or_eq_false_iff, Bool.or_eq_false_iff] at hc
    exact hc.1.1
  unfold isName at hn
  split at hn
  · exact absurd hn (by simp)
  · next d ds hchars =>
      simp only [Bool.and_eq_true, List.all_eq_true] at hn
      rw [hchars]
      intro hmem
      rcases List.mem_cons.mp hmem with rfl | hmem
      · rw [hstart] at hn
        exact Bool.noConfusion hn.1
      · have hthis := hn.2 c hmem
        rw [hc] at hthis
        exact Bool.noConfusion hthis

/-- A name is an identifier, up to where it ends. -/
theorem lexeme?_name {n : Name} (hn : isName n = true) {rest : List Char} (hrest : '-' ∉ rest)
    (hbreaks : Breaks rest) : lexeme? (n.toList ++ rest) = some (.identifier, n.toList) := by
  have hdash : '-' ∉ n.toList := not_mem_of_isName hn (by decide)
  unfold isName at hn
  split at hn
  · exact absurd hn (by simp)
  · next c cs hchars =>
      simp only [Bool.and_eq_true, List.all_eq_true] at hn
      obtain ⟨hstart, hrests⟩ := hn
      have hdigit : c.isDigit = false := by
        rw [Bool.eq_false_iff]
        intro hdigit
        have hthis : isNameStart c = false := isAlphabetic_of_isDigit hdigit
        rw [hstart] at hthis
        exact Bool.noConfusion hthis
      rw [hchars] at hdash ⊢
      rw [List.cons_append, lexeme?_of_no_dash (isBlank_of_isAlphabetic hstart) (by simp_all),
        takeWhile_append_of_head hrests hbreaks]
      simp [hdigit, hstart]

/-- A name is a word of its own. -/
theorem Spelled.name {n : Name} (hn : isName n = true) :
    Spelled n.toList [(.identifier, n)] := by
  refine ⟨not_mem_of_isName hn (by decide), fun rest hrest hbreaks => ?_⟩
  have hlexeme := lexeme?_name hn hrest hbreaks
  cases hchars : n.toList with
  | nil => exact absurd hn (by simp [isName, hchars])
  | cons c cs =>
      rw [hchars] at hlexeme
      rw [List.cons_append, words_cons_of_some hlexeme, ← hchars, String.ofList_toList]
      rfl

/-- The kind of a numeral. -/
def numeralKind (n : Name) : Kind := if n.toList = ['0'] then .falsity else .number

/-- In a numeral there are only digits. -/
theorem not_mem_of_isNumeral {n : Name} (hn : isNumeral n = true) {c : Char}
    (hc : c.isDigit = false) : c ∉ n.toList := by
  simp only [isNumeral, Bool.and_eq_true, List.all_eq_true] at hn
  intro hmem
  have hthis := hn.2 c hmem
  rw [hc] at hthis
  exact Bool.noConfusion hthis

/-- No digit makes a numeral longer that stands before a text that breaks, for
digits make names longer too. -/
theorem Breaks.isDigit {rest : List Char} (h : Breaks rest) :
    ∀ c ∈ rest.head?, c.isDigit = false := by
  intro c hc
  rw [Bool.eq_false_iff]
  intro hdigit
  have hthis := h c hc
  simp [isNameRest, isNumeric_of_isDigit hdigit] at hthis

/-- A numeral is one lexeme, up to where it ends. -/
theorem lexeme?_numeral {n : Name} (hn : isNumeral n = true) {rest : List Char}
    (hrest : '-' ∉ rest) (hbreaks : Breaks rest) :
    lexeme? (n.toList ++ rest) = some (numeralKind n, n.toList) := by
  have hdash : '-' ∉ n.toList := not_mem_of_isNumeral hn (by decide)
  simp only [isNumeral, Bool.and_eq_true, Bool.not_eq_true', List.isEmpty_eq_false_iff,
    List.all_eq_true] at hn
  obtain ⟨hne, hdigits⟩ := hn
  unfold numeralKind
  cases hchars : n.toList with
  | nil => exact absurd hchars hne
  | cons c cs =>
      rw [hchars] at hdash hdigits
      have hc := hdigits c List.mem_cons_self
      rw [List.cons_append, lexeme?_of_no_dash (isBlank_of_isDigit hc) (by simp_all), if_pos hc,
        takeWhile_append_of_head (fun d hd => hdigits d (List.mem_cons_of_mem _ hd))
          hbreaks.isDigit]

/-- A numeral is a word of its own. -/
theorem Spelled.numeral {n : Name} (hn : isNumeral n = true) :
    Spelled n.toList [(numeralKind n, n)] := by
  refine ⟨not_mem_of_isNumeral hn (by decide), fun rest hrest hbreaks => ?_⟩
  have hlexeme := lexeme?_numeral hn hrest hbreaks
  cases hchars : n.toList with
  | nil => exact absurd hn (by simp [isNumeral, hchars])
  | cons c cs =>
      rw [hchars] at hlexeme
      rw [List.cons_append, words_cons_of_some hlexeme, ← hchars, String.ofList_toList]
      rfl

/-- Is the text a name or a numeral, and so fit for a term? -/
def isTermText (n : Name) : Bool := isName n || isNumeral n

/-- The kind of a term. -/
def termKind (n : Name) : Kind := if isName n then .identifier else numeralKind n

/-- A term is one lexeme, up to where it ends. -/
theorem lexeme?_term {n : Name} (hn : isTermText n = true) {rest : List Char}
    (hrest : '-' ∉ rest) (hbreaks : Breaks rest) :
    lexeme? (n.toList ++ rest) = some (termKind n, n.toList) := by
  unfold termKind
  split
  · next hname => exact lexeme?_name hname hrest hbreaks
  · next hname =>
      rw [isTermText, Bool.or_eq_true] at hn
      exact lexeme?_numeral (hn.resolve_left hname) hrest hbreaks

/-- A term is a word of its own. -/
theorem Spelled.term {n : Name} (hn : isTermText n = true) :
    Spelled n.toList [(termKind n, n)] := by
  unfold termKind
  split
  · next hname => exact .name hname
  · next hname =>
      rw [isTermText, Bool.or_eq_true] at hn
      exact .numeral (hn.resolve_left hname)

end Token

end NaturalDeduction
