/-
  NaturalDeduction.Proofs.WrittenCitations
  ────────────────────────────────────────
  **CITATIONS THAT ARE WRITTEN DOWN ARE READ BACK.**

  A dash makes trouble: before a letter it starts a dashed word, and with a `0`
  before it and an `e` behind it is in a rule name.  Between two line numbers
  it is neither, since these do not start with a `0` and have no letters.  Main
  statements:

    • `lexeme?_repr`, `Token.scan_dash`, `Token.lexeme?_dash_name` — numbers and
      dashes,
    • `Citation.ofTokens?_scan_render` — one citation is read back,
    • `Citation.parseList_renderList` — and so is a list of them.
-/
import Mathlib.Data.List.Basic
import Mathlib.Data.List.TakeWhile
import NaturalDeduction.Line.Citation
import NaturalDeduction.Proofs.Scanning

namespace NaturalDeduction

open Token (Divides Spelled Breaks isTermText termKind scan lexeme?)

/-! ## §1. Numbers. -/

/-- A number that a line can have: at least 1, and written with 64 bits. -/
def IsLineNumber (n : Nat) : Prop := 0 < n ∧ n < Token.numberLimit

instance (n : Nat) : Decidable (IsLineNumber n) := inferInstanceAs (Decidable (_ ∧ _))

theorem digitsValue_repr (n : Nat) : Token.digitsValue n.repr.toList = n := by
  rw [Nat.toList_repr, Token.digitsValue]
  have hvalue : Nat.ofDigitChars 10 (Nat.toDigits 10 n) 0 = n := Nat.ofDigitChars_ten_toDigits
  rw [Nat.ofDigitChars_eq_foldl] at hvalue
  exact hvalue

theorem isNumeral_repr (n : Nat) : isNumeral n.repr = true := by
  unfold isNumeral
  rw [Nat.toList_repr, Bool.and_eq_true, List.all_eq_true]
  refine ⟨by simp [Nat.toDigits_ne_nil], fun c hc => ?_⟩
  exact Nat.isDigit_of_mem_toDigits (by decide) (by decide) hc

/-- A number is not written with a `0` in front. -/
theorem head_repr {n : Nat} (hn : 0 < n) : ∀ c ∈ n.repr.toList.head?, c ≠ '0' := by
  rw [Nat.toList_repr]
  induction n using Nat.strongRecOn with
  | ind n ih =>
      by_cases hlt : n < 10
      · rw [Nat.toDigits_of_lt_base hlt]
        intro c hc
        rw [← Option.some.inj hc, ne_eq, Nat.digitChar_eq_zero]
        omega
      · rw [Nat.toDigits_of_base_le (by decide) (by omega),
          List.head?_append_of_ne_nil _ Nat.toDigits_ne_nil]
        exact ih (n / 10) (by omega) (by omega)

/-- **A number is one lexeme, whatever comes behind it**, if this is no digit.
The only rule name that starts with a digit starts with a `0`. -/
theorem lexeme?_repr {n : Nat} (hn : 0 < n) {rest : List Char}
    (hrest : ∀ c ∈ rest.head?, c.isDigit = false) :
    lexeme? (n.repr.toList ++ rest) = some (.number, n.repr.toList) := by
  have hnames : (Token.ruleNames.all fun name => name.head?.all fun c =>
      !c.isDigit || c == '0') = true := by decide
  have hnumeral := isNumeral_repr n
  have hhead := head_repr hn
  simp only [isNumeral, Bool.and_eq_true, Bool.not_eq_true', List.isEmpty_eq_false_iff,
    List.all_eq_true] at hnumeral
  obtain ⟨hne, hdigits⟩ := hnumeral
  cases hchars : n.repr.toList with
  | nil => exact absurd hchars hne
  | cons c cs =>
      rw [hchars] at hhead hdigits
      have hc := hdigits c List.mem_cons_self
      have hzero := hhead c rfl
      have hrule : Token.ruleName? (c :: (cs ++ rest)) = none := by
        refine Token.ruleName?_of_head (fun name hname hfirst => ?_) _
        have hthis := List.all_eq_true.mp hnames name hname
        rw [hfirst, Option.all_some, hc] at hthis
        exact hzero (by simpa using hthis)
      have hdash : c ≠ '-' ∧ c ≠ '|' := by
        constructor
        · rintro rfl
          exact absurd hc (by decide)
        · rintro rfl
          exact absurd hc (by decide)
      have hfalsity : c :: cs ≠ ['0'] := fun heq => hzero (List.cons.inj heq).1
      rw [List.cons_append, lexeme?]
      simp [isBlank_of_isDigit hc, hdash, hrule, hc, hfalsity,
        Token.takeWhile_append_of_head (fun d hd => hdigits d (List.mem_cons_of_mem _ hd)) hrest]

/-- The token of a number. -/
theorem scan_repr {n : Nat} (hn : 0 < n) {rest : List Char}
    (hrest : ∀ c ∈ rest.head?, c.isDigit = false) (offset : Nat) :
    scan offset (n.repr.toList ++ rest)
      = ⟨.number, n.repr, ⟨offset, offset + byteLength n.repr.toList⟩⟩
        :: scan (offset + byteLength n.repr.toList) rest := by
  have hscan := Token.scan_lexeme (lexeme?_repr hn hrest) offset
  rwa [String.ofList_toList] at hscan

theorem number?_repr {n : Nat} (hn : IsLineNumber n) (span : Span) :
    Token.number? ⟨.number, n.repr, span⟩ = some n := by
  unfold Token.number?
  rw [if_pos rfl]
  dsimp only
  rw [digitsValue_repr, if_pos hn.2]

/-! ## §2. Dashes. -/

namespace Token

/-- No rule name starts with a dash. -/
theorem ruleName?_dash (rest : List Char) : ruleName? ('-' :: rest) = none :=
  ruleName?_of_head (by decide) rest

theorem class_of_dash : isBlank '-' = false ∧ isNameStart '-' = false := by decide

/-- A dash is a token by itself if no letter comes after it, -/
theorem scan_dash {cs : List Char} (h : cs.head?.any isNameStart = false) (offset : Nat) :
    scan offset ('-' :: cs) = ⟨.dash, "-", ⟨offset, offset + 1⟩⟩ :: scan (offset + 1) cs := by
  have hlexeme : lexeme? (['-'] ++ cs) = some (.dash, ['-']) := by
    rw [List.singleton_append, lexeme?]
    simp [ruleName?_dash, h, class_of_dash, sign?]
  exact scan_lexeme hlexeme offset

/-- and makes one token with a name. -/
theorem lexeme?_dash_name {n : Name} (hn : isName n = true) :
    lexeme? ('-' :: n.toList) = some (.dashedWord, '-' :: n.toList) := by
  have hstart : n.toList.head?.any isNameStart = true := by
    unfold isName at hn
    split at hn
    · exact absurd hn (by simp)
    · next c cs hchars =>
        rw [hchars]
        exact (Bool.and_eq_true_iff.mp hn).1
  have hrest : ∀ c ∈ n.toList, isNameRest c = true := by
    intro c hc
    rw [← Bool.not_eq_false]
    intro hnot
    exact not_mem_of_isName hn hnot hc
  rw [lexeme?]
  simp [ruleName?_dash, hstart, class_of_dash, List.takeWhile_eq_self_iff.mpr hrest]

end Token

/-! ## §3. Citations. -/

namespace Citation

/-- The written form of a citation: `2`, `2[a/x]` or `2-5`. -/
def render : Citation → String
  | line number none => number.repr
  | line number (some note) => number.repr ++ "[" ++ note.term ++ "/" ++ note.var ++ "]"
  | subproof first last => first.repr ++ "-" ++ last.repr

/-- The numbers are line numbers, and a note puts a term for a variable. -/
def WellFormed : Citation → Prop
  | line number substitution => IsLineNumber number
      ∧ ∀ note ∈ substitution, isTermText note.term = true ∧ isName note.var = true
  | subproof first last => IsLineNumber first ∧ IsLineNumber last

instance : DecidablePred WellFormed
  | line _ _ => inferInstanceAs (Decidable (_ ∧ _))
  | subproof _ _ => inferInstanceAs (Decidable (_ ∧ _))

theorem isTerm_termKind (t : Name) (span : Span) : Token.isTerm ⟨termKind t, t, span⟩ = true := by
  unfold Token.isTerm termKind Token.numeralKind
  dsimp only
  split
  · rfl
  · split <;> rfl

theorem no_dash_of_isTermText {t : Name} (ht : isTermText t = true) : '-' ∉ t.toList :=
  (Spelled.term ht).no_dash

/-- **A citation is read back**, wherever it stands. -/
theorem ofTokens?_scan_render {c : Citation} (hc : c.WellFormed) (offset : Nat) :
    ofTokens? (scan offset c.render.toList) = some c := by
  cases c with
  | line number substitution =>
      obtain ⟨hnumber, hnote⟩ := hc
      cases substitution with
      | none =>
          have hscan := scan_repr hnumber.1
            (show ∀ c ∈ ([] : List Char).head?, c.isDigit = false by simp) offset
          rw [List.append_nil, scan] at hscan
          rw [render, hscan, ofTokens?, number?_repr hnumber]
          rfl
      | some note =>
          obtain ⟨hterm, hvar⟩ := hnote note rfl
          have hvarTerm : isTermText note.var = true := by rw [isTermText, hvar]; rfl
          have hkind : termKind note.var = .identifier := if_pos hvar
          have hdashes : '-' ∉ note.term.toList ∧ '-' ∉ note.var.toList :=
            ⟨no_dash_of_isTermText hterm, no_dash_of_isTermText hvarTerm⟩
          have hchars : (line number (some note)).render.toList
              = number.repr.toList
                ++ '[' :: (note.term.toList ++ '/' :: (note.var.toList ++ [']'])) := by
            simp [render]
          rw [hchars, scan_repr hnumber.1 (by simp), Token.scan_sign rfl (by simp [hdashes]),
            Token.scan_append (Token.divides_cons (by simp) _), Token.scan_term hterm,
            Token.scan_sign rfl (by simp [hdashes]),
            Token.scan_append (Token.divides_cons (by simp) _), Token.scan_term hvarTerm,
            Token.scan_sign rfl (by simp), scan, hkind]
          simp only [List.cons_append, List.nil_append]
          rw [ofTokens?, if_pos ⟨rfl, isTerm_termKind _ _, rfl, rfl, rfl⟩, number?_repr hnumber]
          rfl
  | subproof first last =>
      have hlast : last.repr.toList.head?.any Token.isNameStart = false := by
        have hnumeral := isNumeral_repr last
        simp only [isNumeral, Bool.and_eq_true, List.all_eq_true] at hnumeral
        cases hchars : last.repr.toList with
        | nil => rfl
        | cons d ds =>
            have hd : d.isDigit = true := hnumeral.2 d (by rw [hchars]; exact List.mem_cons_self)
            exact isAlphabetic_of_isDigit hd
      have hchars : (subproof first last).render.toList
          = first.repr.toList ++ '-' :: (last.repr.toList ++ []) := by
        rw [render, String.toList_append, String.toList_append, List.append_assoc, List.append_nil]
        rfl
      rw [hchars, scan_repr hc.1.1 (by simp), List.append_nil, Token.scan_dash hlast,
        ← List.append_nil last.repr.toList, scan_repr hc.2.1 (by simp), scan, ofTokens?, if_pos rfl,
        number?_repr hc.1, number?_repr hc.2]

theorem parse?_render {c : Citation} (hc : c.WellFormed) : parse? c.render.toList = some c :=
  ofTokens?_scan_render hc 0

theorem parse?_blank_render {c : Citation} (hc : c.WellFormed) :
    parse? (' ' :: c.render.toList) = some c := by
  rw [parse?, Token.scan_blank]
  exact ofTokens?_scan_render hc 1

/-- Only letters, digits and its signs stand in a citation. -/
theorem not_mem_render {c : Citation} (hc : c.WellFormed) {d : Char}
    (hd : Token.isNameRest d = false) (hsigns : d ≠ '[' ∧ d ≠ '/' ∧ d ≠ ']' ∧ d ≠ '-') :
    d ∉ c.render.toList := by
  have hdigit : d.isDigit = false := by
    have hbreaks : Breaks [d] := fun e he => Option.some.inj he ▸ hd
    exact hbreaks.isDigit d rfl
  have hnumber : ∀ n : Nat, d ∉ n.repr.toList := fun n =>
    Token.not_mem_of_isNumeral (isNumeral_repr n) hdigit
  cases c with
  | line number substitution =>
      cases substitution with
      | none => exact hnumber number
      | some note =>
          obtain ⟨hterm, hvar⟩ := hc.2 note rfl
          have hvar' : d ∉ note.var.toList := Token.not_mem_of_isName hvar hd
          have hterm' : d ∉ note.term.toList := by
            rw [isTermText, Bool.or_eq_true] at hterm
            rcases hterm with hname | hnumeral
            · exact Token.not_mem_of_isName hname hd
            · exact Token.not_mem_of_isNumeral hnumeral hdigit
          simp only [render, String.toList_append, List.mem_append, not_or]
          refine ⟨⟨⟨⟨⟨hnumber number, ?_⟩, hterm'⟩, ?_⟩, hvar'⟩, ?_⟩
          · exact fun h => hsigns.1 (List.mem_singleton.mp h)
          · exact fun h => hsigns.2.1 (List.mem_singleton.mp h)
          · exact fun h => hsigns.2.2.1 (List.mem_singleton.mp h)
  | subproof first last =>
      simp only [render, String.toList_append, List.mem_append, not_or]
      exact ⟨⟨hnumber first, fun h => hsigns.2.2.2 (List.mem_singleton.mp h)⟩, hnumber last⟩

theorem no_comma_render {c : Citation} (hc : c.WellFormed) : ',' ∉ c.render.toList :=
  not_mem_render hc (by decide) (by decide)

/-- The written form of a list of citations. -/
def renderList (citations : List Citation) : String := ", ".intercalate (citations.map render)

theorem renderList_cons_cons (c d : Citation) (cs : List Citation) :
    (renderList (c :: d :: cs)).toList
      = c.render.toList ++ ([',', ' '] ++ (renderList (d :: cs)).toList) := by
  simp [renderList, String.intercalate_cons_cons]

/-- A written list is split where it was joined. -/
theorem splitOn_renderList {c : Citation} {cs : List Citation}
    (h : ∀ d ∈ c :: cs, d.WellFormed) {lead : List Char} (hlead : ',' ∉ lead) :
    (lead ++ (renderList (c :: cs)).toList).splitOn ','
      = (lead ++ c.render.toList) :: cs.map fun d => ' ' :: d.render.toList := by
  have hcomma : ',' ∉ lead ++ c.render.toList := by
    simp [hlead, no_comma_render (h c List.mem_cons_self)]
  induction cs generalizing c lead with
  | nil =>
      rw [renderList, List.map_singleton, String.intercalate_singleton]
      exact List.splitOn_eq_singleton hcomma
  | cons d cs ih =>
      have hrest : ∀ e ∈ d :: cs, e.WellFormed := fun e he => h e (List.mem_cons_of_mem _ he)
      have hd := no_comma_render (hrest d List.mem_cons_self)
      have hmore := ih hrest (show ',' ∉ [' '] by decide) (by simp [hd])
      rw [renderList_cons_cons, ← List.append_assoc, List.cons_append,
        List.splitOn_append_cons_self_of_not_mem hcomma, hmore]
      rfl

/-! ## §4. Texts without blanks at their ends. -/

end Citation

/-- A text that neither starts nor ends with a blank, and is not empty. -/
def Solid (cs : List Char) : Prop :=
  (∃ c ∈ cs.head?, isBlank c = false) ∧ ∃ c ∈ cs.getLast?, isBlank c = false

theorem Solid.join {as bs : List Char} (ha : Solid as) (hb : Solid bs) (mid : List Char) :
    Solid (as ++ (mid ++ bs)) := by
  obtain ⟨c, hc, hblank⟩ := ha.1
  obtain ⟨d, hd, hblank'⟩ := hb.2
  refine ⟨⟨c, ?_, hblank⟩, d, ?_, hblank'⟩
  · rw [List.head?_append, Option.mem_def.mp hc]
    rfl
  · rw [List.getLast?_append, List.getLast?_append, Option.mem_def.mp hd]
    rfl

theorem solid_of_no_blank {cs : List Char} (hne : cs ≠ []) (h : ∀ c ∈ cs, isBlank c = false) :
    Solid cs := by
  have hhead := List.head?_eq_some_head hne
  have hlast := List.getLast?_eq_some_getLast hne
  exact ⟨⟨_, hhead, h _ (List.head_mem hne)⟩, _, hlast, h _ (List.getLast_mem hne)⟩

/-- Such a text is what is left of itself after blanks. -/
theorem trim_of_solid {cs : List Char} (h : Solid cs) : trim (' ' :: cs) = cs := by
  obtain ⟨⟨c, hc, hblank⟩, d, hd, hblank'⟩ := h
  have hstart : trimStart (' ' :: cs) = cs := by
    obtain ⟨tail, rfl⟩ := List.head?_eq_some_iff.mp hc
    unfold trimStart
    rw [List.dropWhile_cons_of_pos (by decide), List.dropWhile_cons_of_neg (by simp [hblank])]
  rw [trim, hstart]
  obtain ⟨front, rfl⟩ := List.getLast?_eq_some_iff.mp hd
  unfold trimEnd
  rw [List.reverse_append, List.reverse_singleton, List.singleton_append,
    List.dropWhile_cons_of_neg (by simp [hblank']), List.reverse_cons, List.reverse_reverse]

namespace Citation

/-- No blank stands in a citation. -/
theorem solid_render {c : Citation} (hc : c.WellFormed) : Solid c.render.toList := by
  refine solid_of_no_blank ?_ ?_
  · cases c with
    | line number substitution => cases substitution <;> simp [render]
    | subproof first last => simp [render]
  · intro d hd
    rw [← Bool.not_eq_true]
    intro hblank
    refine not_mem_render hc (Token.isNameRest_of_isBlank hblank) ?_ hd
    refine ⟨?_, ?_, ?_, ?_⟩
    all_goals
      rintro rfl
      exact absurd hblank (by decide)

theorem solid_renderList {c : Citation} {cs : List Citation} (h : ∀ d ∈ c :: cs, d.WellFormed) :
    Solid (renderList (c :: cs)).toList := by
  induction cs generalizing c with
  | nil =>
      rw [renderList, List.map_singleton, String.intercalate_singleton]
      exact solid_render (h c List.mem_cons_self)
  | cons d cs ih =>
      rw [renderList_cons_cons]
      exact (solid_render (h c List.mem_cons_self)).join
        (ih fun e he => h e (List.mem_cons_of_mem _ he)) _

/-- **A list of citations is read back**, and no place in it is empty. -/
theorem parseList_renderList {citations : List Citation} (h : ∀ c ∈ citations, c.WellFormed) :
    parseList (renderList citations) = citations.map some := by
  cases citations with
  | nil => rfl
  | cons c cs =>
      have hsplit := splitOn_renderList h (show ',' ∉ [] from List.not_mem_nil)
      rw [List.nil_append, List.nil_append] at hsplit
      have hnotBlank : ¬ (renderList (c :: cs)).toList.all isBlank = true := by
        obtain ⟨d, hd, hblank⟩ := (solid_renderList h).1
        intro hall
        rw [List.all_eq_true.mp hall d (List.mem_of_mem_head? hd)] at hblank
        exact Bool.noConfusion hblank
      unfold parseList
      rw [if_neg hnotBlank, hsplit, List.map_cons, List.map_map,
        parse?_render (h c List.mem_cons_self), List.map_cons]
      congr 1
      refine List.map_congr_left fun d hd => ?_
      exact parse?_blank_render (h d (List.mem_cons_of_mem _ hd))

end Citation

end NaturalDeduction
