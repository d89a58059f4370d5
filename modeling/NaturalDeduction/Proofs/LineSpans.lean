/-
  NaturalDeduction.Proofs.LineSpans
  ─────────────────────────────────
  **WHERE LINES ARE IN A TEXT, and their parts in a line.**

  Main statements:

    • `TextLine.standsIn_of_mem` — the lines of a text stand in it, each from
      the start of the text or a line feed to the next end of a line,
    • `ProofLine.parse_placed` — a line that can be cut gives spans that mark
      its parts, and one that cannot gives a span inside the line.
-/
import Mathlib.Data.List.DropRight
import NaturalDeduction.Line.Basic
import NaturalDeduction.Proofs.Scanning
import NaturalDeduction.Text.Lines

namespace NaturalDeduction

/-! ## §1. The lines of a text. -/

namespace TextLine

theorem toList_text (l : TextLine) : l.text.toList = l.chars := String.toList_ofList

/-- The bytes of a line, without the line's end. -/
def span (l : TextLine) : Span := ⟨l.offset, l.offset + byteLength l.chars⟩

/-- **A line stands in a text**: it starts where the text does or behind a line
feed, holds no line feed, and ends at a line feed, at a carriage return with a
line feed behind it, or where the text does. -/
def StandsIn (l : TextLine) (text : List Char) : Prop :=
  ∃ before ending after, text = before ++ (l.chars ++ (ending ++ after))
    ∧ l.offset = byteLength before ∧ (before = [] ∨ before.getLast? = some '\n')
    ∧ '\n' ∉ l.chars
    ∧ (ending = ['\n'] ∧ l.chars.getLast? ≠ some '\r' ∨ ending = ['\r', '\n']
      ∨ ending ++ after = [])

theorem StandsIn.marks {l : TextLine} {text : List Char} (h : l.StandsIn text) :
    l.span.Marks l.chars text := by
  obtain ⟨before, ending, after, htext, hoffset, -⟩ := h
  exact ⟨before, ending ++ after, htext, hoffset, by rw [← hoffset]; rfl⟩

/-- A line that was cut off at a line feed. -/
theorem standsIn_dropCarriageReturn {before chars after : List Char} {offset : Nat}
    (hoffset : offset = byteLength before) (hbefore : before = [] ∨ before.getLast? = some '\n')
    (hchars : '\n' ∉ chars) :
    StandsIn ⟨offset, dropCarriageReturn chars⟩ (before ++ (chars ++ '\n' :: after)) := by
  by_cases hlast : chars.getLast? = some '\r'
  · have hsplit : chars = chars.dropLast ++ ['\r'] := (List.dropLast_append_getLast? _ hlast).symm
    have hcut : dropCarriageReturn chars = chars.dropLast := by
      rw [dropCarriageReturn, if_pos hlast]
    refine ⟨before, ['\r', '\n'], after, ?_, hoffset, hbefore, ?_, Or.inr (Or.inl rfl)⟩
    · dsimp only
      rw [hcut]
      nth_rewrite 1 [hsplit]
      simp
    · dsimp only
      rw [hcut]
      exact fun hmem => hchars (List.dropLast_subset _ hmem)
  · have hcut : dropCarriageReturn chars = chars := by rw [dropCarriageReturn, if_neg hlast]
    rw [hcut]
    exact ⟨before, ['\n'], after, rfl, hoffset, hbefore, hchars, Or.inl ⟨rfl, hlast⟩⟩

/-- **The lines of a text stand in it**, also if the text is the end of a longer
one. -/
theorem standsIn_of_mem_linesFrom {l : TextLine} {offset : Nat} {cs : List Char}
    (h : l ∈ linesFrom offset cs) (before : List Char) (hoffset : offset = byteLength before)
    (hbefore : before = [] ∨ before.getLast? = some '\n') : l.StandsIn (before ++ cs) := by
  fun_induction linesFrom offset cs generalizing before with
  | case1 => exact absurd h (by simp)
  | case2 offset cs hne hdrop =>
      rw [List.mem_singleton.mp h]
      refine ⟨before, [], [], by simp, hoffset, hbefore, ?_, Or.inr (Or.inr rfl)⟩
      intro hmem
      have hall := List.dropWhile_eq_nil_iff.mp hdrop '\n' hmem
      exact absurd hall (by decide)
  | case3 offset cs hne c rest hdrop line ih =>
      have hfeed : c = '\n' := by
        have hhead := List.head?_dropWhile_not isInLine cs
        rw [hdrop] at hhead
        simpa [isInLine] using hhead
      have hcs : cs = line ++ '\n' :: rest := by
        rw [← hfeed, ← hdrop]
        exact List.takeWhile_append_dropWhile.symm
      have hline : '\n' ∉ line := fun hmem => absurd (List.mem_takeWhile_imp hmem) (by decide)
      rcases List.mem_cons.mp h with rfl | hrest
      · rw [hcs]
        exact standsIn_dropCarriageReturn hoffset hbefore hline
      · have hnext : offset + byteLength line + 1 = byteLength (before ++ (line ++ ['\n'])) := by
          rw [byteLength_append, byteLength_append, ← hoffset]
          rfl
        have hstands := ih hrest (before ++ (line ++ ['\n'])) hnext (Or.inr (by simp))
        rw [hcs]
        simpa using hstands

theorem standsIn_of_mem {l : TextLine} {text : List Char} (h : l ∈ textLines text) :
    l.StandsIn text :=
  standsIn_of_mem_linesFrom h [] rfl (Or.inl rfl)

end TextLine

/-! ## §2. Tokens and blanks of a line. -/

section

variable {raw : String}

theorem Token.fits_of_mem {t : Token} (h : t ∈ Token.tokenize raw) : t.span.Fits raw.toList :=
  ⟨t.text.toList, (Token.marks_of_mem_tokenize h).1⟩

/-- What is shown of a place among the tokens fits the line, also at its end. -/
theorem Token.fits_spanAt {tokens : List Token} (h : tokens <:+ Token.tokenize raw) :
    (Token.spanAt (byteLength raw.toList) tokens).Fits raw.toList := by
  cases tokens with
  | nil => exact Span.fits_emptyAt (isBoundary_length _)
  | cons t rest => exact Token.fits_of_mem (h.subset List.mem_cons_self)

end

theorem trimEnd_isPrefix (cs : List Char) : trimEnd cs <+: cs := List.rdropWhile_prefix isBlank cs

theorem isBoundary_trimEnd (cs : List Char) : IsBoundary cs (byteLength (trimEnd cs)) := by
  obtain ⟨after, hafter⟩ := trimEnd_isPrefix cs
  exact ⟨trimEnd cs, after, hafter.symm, rfl⟩

/-- What is left of a text without the blanks around it, and where that is: as
many bytes in as the blanks at the start take. -/
theorem marks_trim (cs : List Char) :
    (⟨byteLength cs - byteLength (trimStart cs),
      byteLength cs - byteLength (trimStart cs) + byteLength (trim cs)⟩ : Span).Marks
      (trim cs) cs := by
  obtain ⟨after, hafter⟩ := trimEnd_isPrefix (trimStart cs)
  have hcs : cs = cs.takeWhile isBlank ++ trimStart cs := List.takeWhile_append_dropWhile.symm
  have hlength : byteLength cs = byteLength (cs.takeWhile isBlank) + byteLength (trimStart cs) := by
    rw [← byteLength_append, ← hcs]
  have hlead : byteLength cs - byteLength (trimStart cs) = byteLength (cs.takeWhile isBlank) := by
    omega
  refine ⟨cs.takeWhile isBlank, after, ?_, hlead, by rw [hlead]⟩
  nth_rewrite 1 [hcs]
  rw [← hafter]
  rfl

/-! ## §3. The parts of a line. -/

namespace ProofLine

variable {raw : String}

/-- The spans of a line mark its parts in the text that it was cut from. -/
structure MarkedIn (line : ProofLine) (raw : List Char) : Prop where
  whole : line.spans.line.Marks raw raw
  formula : line.spans.formula.Marks line.formulaText.toList raw
  rule : line.spans.rule.Marks line.ruleText.toList raw
  citations : line.spans.citations.Marks line.citationText.toList raw

/-- The outcome of cutting a line points into the line: the parts are where
their spans say, or the fault shows some place of the line. -/
def PlacedIn (raw : List Char) : Except LineFault ProofLine → Prop
  | .ok line => line.MarkedIn raw
  | .error fault => fault.span.Fits raw

theorem kind_of_number? {t : Token} {n : Nat} (h : t.number? = some n) : t.kind = .number := by
  unfold Token.number? at h
  split at h
  · next hkind => exact hkind
  · exact absurd h (by simp)

/-- A line starts with its number and a dot. -/
theorem numbered_eq_ok_iff {start behind : Cursor} {n : Nat} :
    numbered start = .ok (n, behind)
      ↔ ∃ number dot, start.ahead = number :: dot :: behind.ahead ∧ behind.stop = start.stop
        ∧ number.number? = some n ∧ dot.kind = .dot := by
  constructor
  · intro h
    unfold numbered at h
    split at h
    · exact absurd h (by simp)
    · next first afterNumber hfirst =>
        obtain ⟨-, hahead, hstop⟩ := Cursor.eat?_eq_some_iff.mp hfirst
        split at h
        · exact absurd h (by simp)
        · next number hnumber =>
            split at h
            · exact absurd h (by simp)
            · next dot afterDot hdot =>
                obtain ⟨hkind, hahead', hstop'⟩ := Cursor.eat?_eq_some_iff.mp hdot
                obtain ⟨rfl, rfl⟩ := Prod.mk.inj (Except.ok.inj h)
                exact ⟨first, dot, hahead.trans (congrArg (first :: ·) hahead'),
                  hstop'.trans hstop, hnumber, hkind⟩
  · rintro ⟨number, dot, hahead, hstop, hnumber, hdot⟩
    have hfirst : start.eat? .number = some (number, ⟨dot :: behind.ahead, start.stop⟩) :=
      Cursor.eat?_eq_some_iff.mpr ⟨kind_of_number? hnumber, hahead, rfl⟩
    have hsecond : Cursor.eat? ⟨dot :: behind.ahead, start.stop⟩ .dot = some (dot, behind) :=
      Cursor.eat?_eq_some_iff.mpr ⟨hdot, rfl, hstop⟩
    unfold numbered
    rw [hfirst]
    dsimp only
    rw [hnumber]
    dsimp only
    rw [hsecond]

/-- A line without a number shows the place where the number or its dot is
missing. -/
theorem fits_of_numbered {fault : LineFault}
    (h : numbered (Cursor.ofText raw) = .error fault) : fault.span.Fits raw.toList := by
  have hfits : ∀ c : Cursor, c.ahead <:+ Token.tokenize raw → c.stop = byteLength raw.toList →
      c.nextSpan.Fits raw.toList := by
    intro c hahead hstop
    unfold Cursor.nextSpan
    rw [hstop]
    exact Token.fits_spanAt hahead
  unfold numbered at h
  split at h
  · rw [← Except.error.inj h]
    exact hfits _ List.suffix_rfl rfl
  · next first afterNumber hfirst =>
      obtain ⟨-, hahead, hstop⟩ := Cursor.eat?_eq_some_iff.mp hfirst
      have hafter := hfits afterNumber ⟨[first], hahead.symm⟩ hstop
      split at h
      · rw [← Except.error.inj h]
        exact hafter
      · split at h
        · rw [← Except.error.inj h]
          have hmem : first ∈ Token.tokenize raw :=
            (show Token.tokenize raw = first :: afterNumber.ahead from hahead) ▸ List.mem_cons_self
          exact (Token.fits_of_mem hmem).through hafter
        · exact absurd h (by simp)

/-- A flag is the first of the tokens that it is split from, and the formula has the
others. -/
theorem exists_flag_of_splitFlag (tokens : List Token) :
    ∃ flag : Option Token, flag.toList ++ (splitFlag tokens).2 = tokens
      ∧ flag.map Token.text = (splitFlag tokens).1 := by
  unfold splitFlag
  split
  · next first second rest =>
      split
      · exact ⟨some first, rfl, rfl⟩
      · exact ⟨none, rfl, rfl⟩
  · exact ⟨none, rfl, rfl⟩

theorem splitFlag_suffix (tokens : List Token) : (splitFlag tokens).2 <:+ tokens := by
  obtain ⟨flag, htokens, -⟩ := exists_flag_of_splitFlag tokens
  exact ⟨flag.toList, htokens⟩

/-- The citations are where their span says: behind the colon, and behind the
blanks that follow it. -/
theorem marks_citations {colon : Token} (h : colon ∈ Token.tokenize raw) {cs : List Char}
    {start : Nat} (hcs : cs = dropBytes colon.span.stop raw.toList)
    (hstart : start = colon.span.stop + (byteLength cs - byteLength (trimStart cs))) :
    (⟨start, start + byteLength (trim cs)⟩ : Span).Marks (trim cs) raw.toList := by
  obtain ⟨⟨before, after, htext, hcolon, hstop⟩, -⟩ := Token.marks_of_mem_tokenize h
  rw [← byteLength_append] at hstop
  have hcut : cs = after := by
    rw [hcs, htext, ← List.append_assoc, hstop, dropBytes_append]
  have hbehind : (⟨colon.span.stop, byteLength raw.toList⟩ : Span).Marks cs raw.toList := by
    refine ⟨before ++ colon.text.toList, [], ?_, hstop, ?_⟩
    · rw [hcut, htext, List.append_nil, List.append_assoc]
    · rw [hcut, htext, ← List.append_assoc, byteLength_append]
  -- The blanks are counted from the colon on.
  have hmarks := hbehind.forward (marks_trim cs)
  have hspan : (⟨start, start + byteLength (trim cs)⟩ : Span) = (Span.mk
      (byteLength cs - byteLength (trimStart cs))
      (byteLength cs - byteLength (trimStart cs) + byteLength (trim cs))).forward
        colon.span.stop := by
    simp only [Span.forward, Span.mk.injEq]
    omega
  rw [hspan]
  exact hmarks

/-- **Cutting a line points into the line.** -/
theorem parse_placed (raw : String) : PlacedIn raw.toList (parse raw) := by
  unfold parse
  dsimp only
  split
  · next fault hfault => exact fits_of_numbered hfault
  · next number afterDot hnumbered =>
      obtain ⟨first, dot, hahead, -, -, -⟩ := numbered_eq_ok_iff.mp hnumbered
      have hsuffix : afterDot.ahead <:+ Token.tokenize raw := ⟨[first, dot], hahead.symm⟩
      -- All further tokens of the line are among those behind the dot.
      have hbody : afterDot.ahead.dropWhile isBar ⊆ Token.tokenize raw :=
        List.Subset.trans (List.dropWhile_suffix _).subset hsuffix.subset
      split
      · exact Span.fits_emptyAt (isBoundary_trimEnd _)
      · next colon rest hcolon =>
          have hcolonMem : colon ∈ Token.tokenize raw :=
            hbody ((List.dropWhile_suffix _).subset (hcolon ▸ List.mem_cons_self))
          have hbefore : (afterDot.ahead.dropWhile isBar).takeWhile isBeforeColon
              ⊆ Token.tokenize raw :=
            List.Subset.trans (List.takeWhile_prefix _).subset hbody
          split
          · exact Token.fits_of_mem hcolonMem
          · next rule hrule =>
              have hruleMem := hbefore (List.mem_of_getLast? hrule)
              split
              · have htokens : (splitFlag
                    ((afterDot.ahead.dropWhile isBar).takeWhile isBeforeColon).dropLast).2
                    ⊆ Token.tokenize raw :=
                  List.Subset.trans (splitFlag_suffix _).subset
                    (List.Subset.trans (List.dropLast_subset _) hbefore)
                split
                · next first last hfirst hlast =>
                    have hfirstFits := Token.fits_of_mem (htokens (List.mem_of_head? hfirst))
                    have hlastFits := Token.fits_of_mem (htokens (List.mem_of_getLast? hlast))
                    constructor
                    · exact ⟨[], [], by simp, rfl, by simp [Cursor.ofText]⟩
                    · dsimp only
                      rw [String.toList_ofList]
                      exact (hfirstFits.through hlastFits).marks_slice
                    · exact (Token.marks_of_mem_tokenize hruleMem).1
                    · dsimp only
                      rw [String.toList_ofList]
                      exact marks_citations hcolonMem rfl rfl
                · exact Token.fits_of_mem hruleMem
              · exact Token.fits_of_mem hruleMem

theorem markedIn_of_parse {line : ProofLine} (h : parse raw = .ok line) :
    line.MarkedIn raw.toList := by
  have hplaced := parse_placed raw
  rwa [h] at hplaced

theorem fits_of_parse {fault : LineFault} (h : parse raw = .error fault) :
    fault.span.Fits raw.toList := by
  have hplaced := parse_placed raw
  rwa [h] at hplaced

end ProofLine

end NaturalDeduction
