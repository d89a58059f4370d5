/-
  NaturalDeduction.Proofs.WrittenLines
  ────────────────────────────────────
  **A PROOF LINE THAT IS WRITTEN DOWN IS READ BACK.**

      <number>. <bars> <flag>? <formula> <rule> : <citations>

  Every part is a text of its own between blanks, so the tokens of the line are
  those of its parts.  Whether a flag stands before the formula is told from
  two tokens alone: a written formula never looks as if it started with a flag
  (`isFlag_render`), and a name before it always looks like one
  (`isFlag_of_name`), unless the formula starts with the word `v`.  Main
  statements:

    • `ProofLine.parse_of_tokens` — a line is cut where its tokens say,
    • `LineParts.tokenize_render` — the tokens of a written line,
    • `LineParts.parse_render` — a written line is read back.
-/
import NaturalDeduction.Line.Basic
import NaturalDeduction.Proofs.FormulaText
import NaturalDeduction.Proofs.LineSpans
import NaturalDeduction.Proofs.RoundTrip
import NaturalDeduction.Proofs.WrittenCitations

namespace NaturalDeduction

open Token (Divides Spelled isTermText termKind scan lexeme?)

/-! ## §1. Flags. -/

namespace ProofLine

open Formula

/-- A token that is no identifier is no flag. -/
theorem isFlag_of_kind {first : Token} (h : first.kind ≠ .identifier) (second : Token) :
    isFlag first second = false := by
  simp [isFlag, h]

/-- **A written formula does not start with a flag.** -/
theorem isFlag_render {f : Formula} (h : f.WellFormed) {offset : Nat} {first second : Token}
    {rest : List Token} (htokens : scan offset f.render.toList = first :: second :: rest) :
    isFlag first second = false := by
  have hwords := map_word_scan_render h offset
  rw [htokens, List.map_cons, List.map_cons] at hwords
  cases f with
  | falsity => exact absurd hwords (by simp [words])
  | atom predicate terms =>
      rcases h.atom_cases with ⟨left, right, rfl, rfl⟩ | ⟨hid, hname⟩
      · -- The sign of an identity stands second.
        have hsecond : second.kind = .equals :=
          congrArg Prod.fst (List.cons.inj (List.cons.inj hwords).2).1
        simp [isFlag, hsecond]
      · rw [words_atom hid] at hwords
        cases terms with
        | nil => exact absurd hwords (by simp [atomWords])
        | cons t ts =>
            -- No blank stands between a predicate and its parenthesis.
            have hdash : '-' ∉ (renderAtom predicate (t :: ts)).toList := (spelled_atom h).no_dash
            have hchars : (renderAtom predicate (t :: ts)).toList
                = predicate.toList ++ '(' :: (", ".intercalate (t :: ts) ++ ")").toList := by
              rw [renderAtom_cons hid]
              simp
            have hterm : isTermText predicate = true := by rw [isTermText, hname]; rfl
            rw [hchars] at hdash
            rw [render, hchars, Token.scan_append (Token.divides_cons (by simp) _),
              Token.scan_term hterm,
              Token.scan_sign rfl (fun hmem => hdash (List.mem_append_right _ hmem))] at htokens
            obtain ⟨hfirst, hrest⟩ := List.cons.inj htokens
            obtain ⟨hsecond, -⟩ := List.cons.inj hrest
            rw [← hfirst, ← hsecond]
            simp [isFlag]
  | neg inner =>
      have hfirst : first.kind = .tilde := congrArg Prod.fst (List.cons.inj hwords).1
      exact isFlag_of_kind (by rw [hfirst]; decide) second
  | join op left right =>
      have hfirst : first.kind = .leftParen := congrArg Prod.fst (List.cons.inj hwords).1
      exact isFlag_of_kind (by rw [hfirst]; decide) second
  | bind quantifier var body =>
      have hfirst : first.text = quantifier.word := congrArg Prod.snd (List.cons.inj hwords).1
      cases quantifier <;> simp [isFlag, hfirst]

/-- Before a written formula, a name other than the words of the formulas is a
flag. -/
theorem isFlag_of_name {f : Formula} {flag first : Token}
    (hkind : flag.kind = .identifier) (hwords : flag.text ≠ Quantifier.all.word
      ∧ flag.text ≠ Quantifier.ex.word ∧ flag.text ≠ Connective.disj.sign)
    (hfirst : f.words.head? = some first.word) (hapart : first.isWord Connective.disj.sign = false)
    (hgap : flag.span.stop < first.span.start) : isFlag flag first = true := by
  obtain ⟨w, hw, hkinds⟩ := f.head_words
  rw [Option.mem_def, hfirst, Option.some.injEq] at hw
  have hfirstKind : first.kind = w.1 := congrArg Prod.fst hw
  unfold isFlag
  simp only [hkind, hwords, decide_true, Bool.true_and, ne_eq, not_false_eq_true]
  rcases hkinds with hk | hk | hk | hk | hk
  · rw [Token.isWord, hfirstKind, hk] at hapart
    rw [hfirstKind, hk]
    simpa using hapart
  · rw [hfirstKind, hk]
  · rw [hfirstKind, hk]
  · rw [hfirstKind, hk]
  · rw [hfirstKind, hk]
    exact decide_eq_true hgap

/-! ## §2. The parts of a line. -/

/-- A list whose first part is of one kind, and what follows is not, is cut
between the two. -/
theorem cut_append {α : Type} {p : α → Bool} {as bs : List α} (has : ∀ a ∈ as, p a = true)
    (hbs : ∀ b ∈ bs.head?, p b = false) :
    (as ++ bs).takeWhile p = as ∧ (as ++ bs).dropWhile p = bs := by
  refine ⟨Token.takeWhile_append_of_head has hbs, ?_⟩
  rw [List.dropWhile_append_of_pos has]
  cases bs with
  | nil => rfl
  | cons b bs => rw [List.dropWhile_cons_of_neg (by simp [hbs b rfl])]

theorem kind_of_isRuleText {rule : Token} (h : isRuleText rule = true) :
    rule.kind ≠ .bar ∧ rule.kind ≠ .colon := by
  rw [isRuleText, Bool.or_eq_true, decide_eq_true_eq, decide_eq_true_eq] at h
  rcases h with hkind | hkind
  all_goals
    rw [hkind]
    decide

/-- **A line is cut where its tokens say**: a number and a dot, bars, a flag
perhaps and the formula, a rule, and the citations behind the colon. -/
theorem parse_of_tokens {raw : String} {number dot rule colon first last : Token}
    {bars before formula after : List Token} {n : Nat} {flag : Option Name}
    (htokens : Token.tokenize raw = number :: dot :: (bars ++ (before ++ rule :: colon :: after)))
    (hnumber : number.number? = some n) (hdot : dot.kind = .dot)
    (hbars : ∀ t ∈ bars, t.kind = .bar) (hbefore : ∀ t ∈ before, t.kind ≠ .bar ∧ t.kind ≠ .colon)
    (hrule : isRuleText rule = true) (hcolon : colon.kind = .colon)
    (hflag : splitFlag before = (flag, formula)) (hfirst : formula.head? = some first)
    (hlast : formula.getLast? = some last) :
    ∃ line, parse raw = .ok line ∧ line.number = n ∧ line.depth = bars.length
      ∧ line.flag = flag
      ∧ line.formulaText = String.ofList ((first.span.through last.span).slice raw.toList)
      ∧ line.ruleText = rule.text
      ∧ line.citationText = String.ofList (trim (dropBytes colon.span.stop raw.toList)) := by
  have hbody : ∀ t ∈ before ++ [rule], t.kind ≠ .bar ∧ t.kind ≠ .colon := by
    intro t ht
    rcases List.mem_append.mp ht with hmem | hmem
    · exact hbefore t hmem
    · rw [List.mem_singleton.mp hmem]
      exact kind_of_isRuleText hrule
  have hnumbered : numbered (Cursor.ofText raw)
      = .ok (n, ⟨bars ++ ((before ++ [rule]) ++ colon :: after), byteLength raw.toList⟩) := by
    refine numbered_eq_ok_iff.mpr ⟨number, dot, ?_, rfl, hnumber, hdot⟩
    show Token.tokenize raw = _
    simp [htokens]
  have hbars' : ∀ t ∈ bars, isBar t = true := fun t ht => decide_eq_true (hbars t ht)
  have hbarsEnd : ∀ t ∈ ((before ++ [rule]) ++ colon :: after).head?, isBar t = false := by
    intro t ht
    have hmem : t ∈ before ++ [rule] := by
      rw [List.head?_append_of_ne_nil _ (by simp)] at ht
      exact List.mem_of_mem_head? ht
    exact decide_eq_false (hbody t hmem).1
  have hbody' : ∀ t ∈ before ++ [rule], isBeforeColon t = true :=
    fun t ht => decide_eq_true (hbody t ht).2
  have hcolonEnd : ∀ t ∈ (colon :: after).head?, isBeforeColon t = false := by
    intro t ht
    rw [← Option.some.inj ht]
    simp [isBeforeColon, hcolon]
  obtain ⟨hdepth, hrest⟩ := cut_append hbars' hbarsEnd
  obtain ⟨hbefore', hafter⟩ := cut_append hbody' hcolonEnd
  unfold parse
  dsimp only
  rw [hnumbered]
  dsimp only
  rw [hdepth, hrest, hafter, hbefore']
  dsimp only
  rw [List.getLast?_concat]
  dsimp only
  rw [if_pos hrule, List.dropLast_concat, hflag]
  dsimp only
  rw [hfirst, hlast]
  exact ⟨_, rfl, rfl, rfl, rfl, rfl, rfl, rfl⟩

end ProofLine

/-! ## §3. Written lines. -/

/-- What a proof line says. -/
structure LineParts where
  number : Nat
  depth : Nat
  flag : Option Name
  formula : Formula
  ruleText : String
  citations : List Citation

namespace LineParts

/-- One bar and a blank for each subproof around the line. -/
def bars : Nat → String
  | 0 => ""
  | depth + 1 => "| " ++ bars depth

/-- **The written form of a line.** -/
def render (p : LineParts) : String :=
  p.number.repr ++ ". " ++ bars p.depth ++ (p.flag.map (· ++ " ")).getD "" ++ p.formula.render
    ++ " " ++ p.ruleText ++ " : " ++ Citation.renderList p.citations

/-- **A line that can be written down and read back.**  The number is a line
number, the flag a name that no formula can take for a word of its own, and the
rule is named by one of the rule names, or by a dash and a name. -/
structure WellFormed (p : LineParts) : Prop where
  number : IsLineNumber p.number
  flag : ∀ z ∈ p.flag, isName z = true ∧ z ≠ Quantifier.all.word ∧ z ≠ Quantifier.ex.word
    ∧ z ≠ Connective.disj.sign
  formula : p.formula.WellFormed
  apart : p.flag.isSome = true → ∀ t ∈ (Token.tokenize p.formula.render).head?,
    t.isWord Connective.disj.sign = false
  rule : (∃ rule : Rule, p.ruleText = rule.name) ∨ ∃ n, isName n = true ∧ p.ruleText = "-" ++ n
  citations : ∀ c ∈ p.citations, c.WellFormed

/-- The characters of the bars, each with the blank that comes before it. -/
def barChars : Nat → List Char
  | 0 => []
  | depth + 1 => ' ' :: '|' :: barChars depth

/-- The characters of a flag, with the blank that comes before it. -/
def flagChars : Option Name → List Char
  | none => []
  | some z => ' ' :: z.toList

theorem blank_bars (depth : Nat) (cs : List Char) :
    ' ' :: ((bars depth).toList ++ cs) = barChars depth ++ ' ' :: cs := by
  induction depth with
  | zero => rfl
  | succ depth ih =>
      rw [bars, String.toList_append, barChars, List.cons_append, List.cons_append, ← ih]
      rfl

/-- A line as its parts, each with the blank that comes before it. -/
theorem render_chars (p : LineParts) : p.render.toList
    = p.number.repr.toList ++ '.' :: (barChars p.depth ++ (flagChars p.flag
      ++ ' ' :: (p.formula.render.toList ++ ' ' :: (p.ruleText.toList
        ++ ' ' :: ':' :: ' ' :: (Citation.renderList p.citations).toList)))) := by
  have hflag : ∀ cs, ' ' :: (((p.flag.map (· ++ " ")).getD "").toList ++ cs)
      = flagChars p.flag ++ ' ' :: cs := by
    intro cs
    cases p.flag with
    | none => rfl
    | some z => simp [flagChars]
  unfold render
  simp only [String.toList_append, List.append_assoc]
  rw [← hflag, ← blank_bars]
  rfl

/-- The bars are as many tokens as there are subproofs around the line. -/
theorem scan_barChars (depth offset : Nat) : (scan offset (barChars depth)).length = depth
    ∧ ∀ t ∈ scan offset (barChars depth), t.kind = .bar := by
  have hdash : ∀ d, '-' ∉ '|' :: barChars d := by
    intro d
    induction d with
    | zero => decide
    | succ d ih =>
        rw [barChars]
        simpa using ih
  induction depth generalizing offset with
  | zero =>
      rw [barChars, scan]
      exact ⟨rfl, fun t ht => absurd ht (by simp)⟩
  | succ depth ih =>
      obtain ⟨hlength, hkinds⟩ := ih (offset + 1 + '|'.utf8Size)
      rw [barChars, Token.scan_blank, Token.scan_sign rfl (hdash depth)]
      refine ⟨by rw [List.length_cons, hlength], fun t ht => ?_⟩
      rcases List.mem_cons.mp ht with rfl | hmem
      · rfl
      · exact hkinds t hmem

/-- The token of a flag. -/
def flagTokens (offset : Nat) : Option Name → List Token
  | none => []
  | some z => [⟨.identifier, z, ⟨offset + 1, offset + 1 + byteLength z.toList⟩⟩]

theorem scan_flagChars {flag : Option Name} (h : ∀ z ∈ flag, isName z = true) (offset : Nat) :
    scan offset (flagChars flag) = flagTokens offset flag := by
  cases flag with
  | none =>
      rw [flagChars, scan]
      rfl
  | some z =>
      have hname := h z rfl
      have hterm : isTermText z = true := by rw [isTermText, hname]; rfl
      rw [flagChars, Token.scan_blank, Token.scan_term hterm, termKind, if_pos hname]
      rfl

/-- A rule is named by one token. -/
theorem lexeme?_ruleText {p : LineParts} (h : p.WellFormed) :
    ∃ kind, lexeme? p.ruleText.toList = some (kind, p.ruleText.toList)
      ∧ (kind = .ruleName ∨ kind = .dashedWord) := by
  rcases h.rule with ⟨rule, heq⟩ | ⟨n, hn, heq⟩
  · rw [heq]
    cases rule
    case premiss => exact ⟨.dashedWord, by decide +kernel, Or.inr rfl⟩
    case assumption => exact ⟨.dashedWord, by decide +kernel, Or.inr rfl⟩
    all_goals exact ⟨.ruleName, by decide +kernel, Or.inl rfl⟩
  · rw [heq, String.toList_append]
    exact ⟨.dashedWord, Token.lexeme?_dash_name hn, Or.inr rfl⟩

/-- Where the flag of a written line may stand, the blank before it included. -/
def flagStart (p : LineParts) : Nat :=
  byteLength p.number.repr.toList + 1 + byteLength (barChars p.depth)

/-- Where the formula of a written line starts. -/
def formulaStart (p : LineParts) : Nat := p.flagStart + byteLength (flagChars p.flag) + 1

/-- Where the citations of a written line start, the blank before them
included. -/
def citationStart (p : LineParts) : Nat :=
  p.formulaStart + byteLength p.formula.render.toList + 1 + byteLength p.ruleText.toList + 2

/-- The formula of a written line stands where it is said to start, -/
theorem formula_in_render (p : LineParts) : ∃ before after,
    p.render.toList = before ++ (p.formula.render.toList ++ after)
      ∧ byteLength before = p.formulaStart := by
  refine ⟨p.number.repr.toList ++ '.' :: (barChars p.depth ++ (flagChars p.flag ++ [' '])),
    ' ' :: (p.ruleText.toList ++ ' ' :: ':' :: ' ' :: (Citation.renderList p.citations).toList),
    ?_, ?_⟩
  · rw [render_chars]
    simp only [List.append_assoc, List.cons_append, List.nil_append]
  · simp only [byteLength_append, byteLength_cons, byteLength_nil]
    show _ + (1 + (_ + (_ + (1 + 0)))) = _
    unfold formulaStart flagStart
    omega

/-- and so do its citations. -/
theorem citations_in_render (p : LineParts) : ∃ before,
    p.render.toList = before ++ ' ' :: (Citation.renderList p.citations).toList
      ∧ byteLength before = p.citationStart := by
  refine ⟨p.number.repr.toList ++ '.' :: (barChars p.depth ++ (flagChars p.flag
    ++ ' ' :: (p.formula.render.toList ++ ' ' :: (p.ruleText.toList ++ [' ', ':'])))), ?_, ?_⟩
  · rw [render_chars]
    simp only [List.append_assoc, List.cons_append, List.nil_append]
  · simp only [byteLength_append, byteLength_cons, byteLength_nil]
    show _ + (1 + (_ + (_ + (1 + (_ + (1 + (_ + (1 + (1 + 0))))))))) = _
    unfold citationStart formulaStart flagStart
    omega

/-- What comes after the dot starts with a blank. -/
theorem divides_body (depth : Nat) (flag : Option Name) (cs : List Char) :
    Divides (barChars depth ++ (flagChars flag ++ ' ' :: cs))
      ∧ Divides (flagChars flag ++ ' ' :: cs) := by
  have hflag : Divides (flagChars flag ++ ' ' :: cs) := by
    cases flag with
    | none => exact Token.divides_cons (by simp) _
    | some z => exact Token.divides_cons (by simp) _
  refine ⟨?_, hflag⟩
  cases depth with
  | zero => exact hflag
  | succ depth => exact Token.divides_cons (by simp) _

/-- **The tokens of a written line.** -/
theorem tokenize_render {p : LineParts} (h : p.WellFormed) :
    ∃ number dot rule colon bars after, Token.tokenize p.render
        = number :: dot :: (bars ++ ((flagTokens p.flagStart p.flag
          ++ scan p.formulaStart p.formula.render.toList) ++ rule :: colon :: after))
      ∧ number.number? = some p.number ∧ dot.kind = .dot
      ∧ bars.length = p.depth ∧ (∀ t ∈ bars, t.kind = .bar)
      ∧ rule.text = p.ruleText ∧ ProofLine.isRuleText rule = true
      ∧ colon.kind = .colon ∧ colon.span.stop = p.citationStart := by
  obtain ⟨kind, hrule, hkind⟩ := lexeme?_ruleText h
  have hblank : ∀ cs, Divides (' ' :: cs) := fun cs => Token.divides_cons (by simp) cs
  -- From the last part to the first, each ends where the blank of the next begins.
  have hcolon : ∀ o cs, scan o (' ' :: ':' :: ' ' :: cs)
      = ⟨.colon, ":", ⟨o + 1, o + 2⟩⟩ :: scan (o + 2) (' ' :: cs) := by
    intro o cs
    have hlexeme : lexeme? [':'] = some (.colon, [':']) := by decide +kernel
    rw [Token.scan_blank]
    exact Token.scan_before hlexeme (hblank cs) (o + 1)
  have hruleToken : ∀ o cs, scan o (' ' :: (p.ruleText.toList ++ ' ' :: cs))
      = ⟨kind, p.ruleText, ⟨o + 1, o + 1 + byteLength p.ruleText.toList⟩⟩
        :: scan (o + 1 + byteLength p.ruleText.toList) (' ' :: cs) := by
    intro o cs
    rw [Token.scan_blank, Token.scan_before hrule (hblank cs), String.ofList_toList]
  have hformula : ∀ o cs, scan o (' ' :: (p.formula.render.toList ++ ' ' :: cs))
      = scan (o + 1) p.formula.render.toList
        ++ scan (o + 1 + byteLength p.formula.render.toList) (' ' :: cs) := by
    intro o cs
    rw [Token.scan_blank, Token.scan_append (hblank cs)]
  have hflag : ∀ o cs, scan o (flagChars p.flag ++ ' ' :: cs)
      = flagTokens o p.flag ++ scan (o + byteLength (flagChars p.flag)) (' ' :: cs) := by
    intro o cs
    rw [Token.scan_append (hblank cs), scan_flagChars fun z hz => (h.flag z hz).1]
  have hdot : ∀ o cs, Divides cs →
      scan o ('.' :: cs) = ⟨.dot, ".", ⟨o, o + 1⟩⟩ :: scan (o + 1) cs := by
    intro o cs hcs
    have hlexeme : lexeme? ['.'] = some (.dot, ['.']) := by decide +kernel
    exact Token.scan_before hlexeme hcs o
  obtain ⟨hlength, hbars⟩ := scan_barChars p.depth (byteLength p.number.repr.toList + 1)
  have htokens : Token.tokenize p.render
      = ⟨.number, p.number.repr, ⟨0, byteLength p.number.repr.toList⟩⟩
        :: ⟨.dot, ".", ⟨byteLength p.number.repr.toList, byteLength p.number.repr.toList + 1⟩⟩
        :: (scan (byteLength p.number.repr.toList + 1) (barChars p.depth)
          ++ ((flagTokens p.flagStart p.flag ++ scan p.formulaStart p.formula.render.toList)
            ++ ⟨kind, p.ruleText, ⟨p.citationStart - 2 - byteLength p.ruleText.toList,
                p.citationStart - 2⟩⟩
            :: ⟨.colon, ":", ⟨p.citationStart - 1, p.citationStart⟩⟩
            :: scan p.citationStart (' ' :: (Citation.renderList p.citations).toList))) := by
    unfold Token.tokenize
    rw [render_chars, scan_repr h.number.1 (by simp), hdot _ _ (divides_body _ _ _).1,
      Token.scan_append (divides_body p.depth _ _).2, hflag, hformula, hruleToken, hcolon,
      List.append_assoc, Nat.zero_add]
    unfold citationStart formulaStart flagStart
    simp only [Nat.add_sub_cancel]
    rfl
  refine ⟨_, _, _, _, _, _, htokens, number?_repr h.number _, rfl, hlength, hbars, rfl, ?_, rfl,
    rfl⟩
  rcases hkind with rfl | rfl <;> rfl

/-! ## §4. Reading a written line. -/

/-- The flag and the formula are told apart. -/
theorem splitFlag_render {p : LineParts} (h : p.WellFormed) :
    ProofLine.splitFlag
        (flagTokens p.flagStart p.flag ++ scan p.formulaStart p.formula.render.toList)
      = (p.flag, scan p.formulaStart p.formula.render.toList) := by
  obtain ⟨first, hfirst, hstart⟩ :=
    Token.scan_starts (Formula.isSome_lexeme?_render h.formula) p.formulaStart
  obtain ⟨rest, htokens⟩ := List.head?_eq_some_iff.mp hfirst
  cases hflag : p.flag with
  | none =>
      rw [flagTokens, List.nil_append, htokens]
      cases rest with
      | nil => rfl
      | cons second rest => rw [ProofLine.splitFlag, ProofLine.isFlag_render h.formula htokens]; rfl
  | some z =>
      obtain ⟨hname, hwords⟩ := h.flag z hflag
      have hhead : p.formula.words.head? = some first.word := by
        rw [← Formula.map_word_scan_render h.formula p.formulaStart, htokens]
        rfl
      have hapart : first.isWord Connective.disj.sign = false := by
        have hwords' := congrArg List.head? (Formula.map_word_tokenize_render h.formula)
        rw [hhead, List.head?_map, Option.map_eq_some_iff] at hwords'
        obtain ⟨t, ht, hsame⟩ := hwords'
        have hthis := h.apart (by rw [hflag]; rfl) t ht
        rw [Token.isWord] at hthis ⊢
        rwa [show first.kind = t.kind from (congrArg Prod.fst hsame).symm,
          show first.text = t.text from (congrArg Prod.snd hsame).symm]
      have hgap : p.flagStart + 1 + byteLength z.toList < first.span.start := by
        rw [hstart, formulaStart, hflag, flagChars, byteLength_cons]
        show _ < p.flagStart + (1 + byteLength z.toList) + 1
        omega
      rw [flagTokens, htokens, List.singleton_append, ProofLine.splitFlag,
        ProofLine.isFlag_of_name rfl hwords hhead hapart hgap]
      rfl

/-- Neither the flag nor the formula has a bar or a colon. -/
theorem kind_of_mem_content {p : LineParts} (h : p.WellFormed) :
    ∀ t ∈ flagTokens p.flagStart p.flag ++ scan p.formulaStart p.formula.render.toList,
      t.kind ≠ .bar ∧ t.kind ≠ .colon := by
  intro t ht
  rcases List.mem_append.mp ht with hflag | hformula
  · cases hz : p.flag with
    | none =>
        rw [hz] at hflag
        exact absurd hflag (by simp [flagTokens])
    | some z =>
        rw [hz] at hflag
        rw [List.mem_singleton.mp hflag]
        simp
  · have hword : t.word ∈ p.formula.words := by
      rw [← Formula.map_word_scan_render h.formula p.formulaStart]
      exact List.mem_map_of_mem hformula
    exact Formula.kind_of_mem_words hword

/-- From the first token of the formula to the last is the whole formula. -/
theorem marks_formula (p : LineParts) {first last : Token}
    (hfirst : first.span.start = p.formulaStart)
    (hlast : last.span.stop = p.formulaStart + byteLength p.formula.render.toList) :
    (first.span.through last.span).Marks p.formula.render.toList p.render.toList := by
  obtain ⟨before, after, htext, hlength⟩ := p.formula_in_render
  refine ⟨before, after, htext, hfirst.trans hlength.symm, ?_⟩
  show max last.span.stop first.span.start = _
  rw [hfirst, hlast, hlength]
  omega

/-- Behind the colon, blanks apart, are the citations. -/
theorem trim_behind_colon {p : LineParts} (h : p.WellFormed) :
    trim (dropBytes p.citationStart p.render.toList)
      = (Citation.renderList p.citations).toList := by
  obtain ⟨before, htext, hlength⟩ := p.citations_in_render
  rw [← hlength, htext, dropBytes_append]
  cases hcases : p.citations with
  | nil => rfl
  | cons c cs => exact trim_of_solid (Citation.solid_renderList (hcases ▸ h.citations))

/-- **A written line is read back**: its number, its depth, its flag or that it
has none, a text that reads as its formula, its rule, and its citations, every
one of them readable. -/
theorem parse_render {p : LineParts} (h : p.WellFormed) :
    ∃ line, ProofLine.parse p.render = .ok line ∧ line.number = p.number ∧ line.depth = p.depth
      ∧ line.flag = p.flag ∧ Formula.parseExact line.formulaText = .ok p.formula
      ∧ line.ruleText = p.ruleText ∧ line.citations = p.citations.map some := by
  obtain ⟨number, dot, rule, colon, bars, after, htokens, hnumber, hdot, hlength, hbars, hruleText,
    hrule, hcolon, hstop⟩ := tokenize_render h
  obtain ⟨first, hfirst, hstart⟩ :=
    Token.scan_starts (Formula.isSome_lexeme?_render h.formula) p.formulaStart
  obtain ⟨last, hlast, hend⟩ := Formula.reachesEnd_render h.formula p.formulaStart
  obtain ⟨line, hline, hn, hdepth, hflag, hformula, hruleLine, hcitation⟩ :=
    ProofLine.parse_of_tokens htokens hnumber hdot hbars (kind_of_mem_content h) hrule hcolon
      (splitFlag_render h) hfirst hlast
  refine ⟨line, hline, hn, hdepth.trans hlength, hflag, ?_, hruleLine.trans hruleText, ?_⟩
  · rw [hformula, Span.slice_of_marks (p.marks_formula hstart hend), String.ofList_toList]
    exact Formula.parseExact_render h.formula
  · rw [ProofLine.citations, hcitation, hstop, trim_behind_colon h, String.ofList_toList]
    exact Citation.parseList_renderList h.citations

/-- A flagged line two subproofs deep, with a numeral for a variable noted on a
citation, and a subproof cited by two numbers of two digits. -/
theorem parse_render_flagged :
    ∃ line, ProofLine.parse "12. | | z (P(z) v 0) v-i1 : 3[7/x], 10-11" = .ok line
      ∧ line.number = 12 ∧ line.depth = 2 ∧ line.flag = some "z"
      ∧ Formula.parseExact line.formulaText = .ok (.disj (.atom "P" ["z"]) .falsity)
      ∧ line.ruleText = "v-i1"
      ∧ line.citations = [some (.line 3 (some ⟨"7", "x"⟩)), some (.subproof 10 11)] := by
  have hformula : (Formula.disj (.atom "P" ["z"]) .falsity).WellFormed := by decide +kernel
  refine parse_render (p := ⟨12, 2, some "z", .disj (.atom "P" ["z"]) .falsity, "v-i1",
    [.line 3 (some ⟨"7", "x"⟩), .subproof 10 11]⟩)
    ⟨by decide, ?_, hformula, ?_, Or.inl ⟨.disjIntroLeft, rfl⟩, by decide +kernel⟩
  · decide +kernel
  · decide +kernel

end LineParts

end NaturalDeduction
