/-
  NaturalDeduction.Proofs.Scanning
  ────────────────────────────────
  **WHERE THE TOKENS OF A TEXT ARE.**

  A span is right if it starts and ends between two characters of its text and
  has the wanted characters in between (`Span.Marks`); then cutting along it
  gives these characters, and a span inside a marked part can be moved to the
  whole.  Main statements:

    • `Span.slice_of_marks`, `Span.Marks.forward` — cutting and moving,
    • `Token.marks_of_mem_scan` — the span of a token marks its text,
    • `Token.scan_ordered` — the tokens of a text stand one behind the other,
    • `Token.scan_append` — the tokens of a text that is put together from two,
      if the second starts with a character that no lexeme goes on with.
-/
import Mathlib.Data.List.Find
import NaturalDeduction.Proofs.Lexemes

namespace NaturalDeduction

/-! ## §1. Cutting a text between characters. -/

theorem dropBytes_append (before after : List Char) :
    dropBytes (byteLength before) (before ++ after) = after := by
  induction before with
  | nil =>
      cases after with
      | nil => rfl
      | cons c cs => rfl
  | cons c cs ih =>
      have hpos := c.utf8Size_pos
      rw [List.cons_append, dropBytes, byteLength_cons, if_neg (by omega), Nat.add_sub_cancel_left]
      exact ih

theorem takeBytes_append (part after : List Char) :
    takeBytes (byteLength part) (part ++ after) = part := by
  induction part with
  | nil =>
      cases after with
      | nil => rfl
      | cons c cs => rfl
  | cons c cs ih =>
      have hpos := c.utf8Size_pos
      rw [List.cons_append, takeBytes, byteLength_cons, if_neg (by omega), Nat.add_sub_cancel_left,
        ih]

/-- There is a place between two characters of the text, or at one of its ends,
that many bytes into it. -/
def IsBoundary (text : List Char) (n : Nat) : Prop :=
  ∃ before after, text = before ++ after ∧ byteLength before = n

theorem isBoundary_length (text : List Char) : IsBoundary text (byteLength text) :=
  ⟨text, [], (List.append_nil text).symm, rfl⟩

namespace Span

variable {s t : Span} {part mid text : List Char}

/-- **A span marks a part of a text**: it starts and ends between characters,
and the part lies in between. -/
def Marks (s : Span) (part text : List Char) : Prop :=
  ∃ before after, text = before ++ (part ++ after) ∧ s.start = byteLength before
    ∧ s.stop = byteLength before + byteLength part

/-- A span lies in a text and cuts no character in two. -/
def Fits (s : Span) (text : List Char) : Prop := ∃ part, s.Marks part text

/-- **What a span marks is what is cut along it.** -/
theorem slice_of_marks (h : s.Marks part text) : s.slice text = part := by
  obtain ⟨before, after, rfl, hstart, hstop⟩ := h
  unfold slice
  rw [hstop, hstart, Nat.add_sub_cancel_left, dropBytes_append, takeBytes_append]

/-- What a span marks in a marked part, it marks in the whole. -/
theorem Marks.forward (ht : t.Marks mid text) (hs : s.Marks part mid) :
    (s.forward t.start).Marks part text := by
  obtain ⟨before, after, rfl, hstart, -⟩ := ht
  obtain ⟨before', after', rfl, hstart', hstop'⟩ := hs
  refine ⟨before ++ before', after' ++ after, by simp, ?_, ?_⟩
  · show s.start + t.start = _
    rw [byteLength_append]
    omega
  · show s.stop + t.start = _
    rw [byteLength_append]
    omega

theorem Marks.le (h : s.Marks part text) : s.start ≤ s.stop := by
  obtain ⟨before, after, -, hstart, hstop⟩ := h
  omega

theorem Marks.stop_le (h : s.Marks part text) : s.stop ≤ byteLength text := by
  obtain ⟨before, after, rfl, -, hstop⟩ := h
  rw [hstop, byteLength_append, byteLength_append]
  omega

/-- A span is empty exactly if what it marks is. -/
theorem Marks.start_eq_stop_iff (h : s.Marks part text) : s.start = s.stop ↔ part = [] := by
  obtain ⟨before, after, -, hstart, hstop⟩ := h
  cases part with
  | nil =>
      rw [hstart, hstop]
      exact ⟨fun _ => rfl, fun _ => rfl⟩
  | cons c part =>
      have hpos := c.utf8Size_pos
      rw [hstart, hstop, byteLength_cons]
      exact ⟨fun h => by omega, fun h => absurd h (List.cons_ne_nil c part)⟩

theorem Marks.isBoundary_start (h : s.Marks part text) : IsBoundary text s.start := by
  obtain ⟨before, after, rfl, hstart, -⟩ := h
  exact ⟨before, part ++ after, rfl, hstart.symm⟩

theorem Marks.isBoundary_stop (h : s.Marks part text) : IsBoundary text s.stop := by
  obtain ⟨before, after, rfl, -, hstop⟩ := h
  exact ⟨before ++ part, after, (List.append_assoc ..).symm, by rw [byteLength_append, hstop]⟩

/-- A span from one boundary to a later one fits. -/
theorem fits_of_boundaries (hle : s.start ≤ s.stop) (hstart : IsBoundary text s.start)
    (hstop : IsBoundary text s.stop) : s.Fits text := by
  obtain ⟨before, after, htext, hbefore⟩ := hstart
  obtain ⟨before', after', htext', hbefore'⟩ := hstop
  have hpre : before <+: text := ⟨after, htext.symm⟩
  have hpre' : before' <+: text := ⟨after', htext'.symm⟩
  rcases List.prefix_or_prefix_of_prefix hpre hpre' with ⟨part, hpart⟩ | ⟨part, hpart⟩
  · refine ⟨part, before, after', ?_, hbefore.symm, ?_⟩
    · rw [htext', ← hpart, List.append_assoc]
    · rw [← hbefore', ← hpart, byteLength_append]
  · -- The later boundary comes first only if there is nothing in between.
    have hlength : byteLength before = byteLength before' + byteLength part := by
      rw [← hpart, byteLength_append]
    refine ⟨[], before, after, htext, hbefore.symm, ?_⟩
    rw [byteLength_nil]
    omega

theorem Fits.marks_slice (h : s.Fits text) : s.Marks (s.slice text) text := by
  obtain ⟨part, hpart⟩ := h
  rw [slice_of_marks hpart]
  exact hpart

theorem fits_emptyAt {n : Nat} (h : IsBoundary text n) : (emptyAt n).Fits text :=
  fits_of_boundaries (Nat.le_refl n) h h

theorem Fits.through (hs : s.Fits text) (ht : t.Fits text) : (s.through t).Fits text := by
  obtain ⟨part, hpart⟩ := hs
  obtain ⟨part', hpart'⟩ := ht
  refine fits_of_boundaries (Nat.le_max_right _ _) hpart.isBoundary_start ?_
  show IsBoundary text (max t.stop s.start)
  rcases Nat.le_total t.stop s.start with hle | hle
  · rw [Nat.max_eq_right hle]
    exact hpart.isBoundary_start
  · rw [Nat.max_eq_left hle]
    exact hpart'.isBoundary_stop

end Span

namespace Token

/-! ## §2. The places of the tokens. -/

/-- **A lexeme stands at the start of the text it was found in**, and is not
empty. -/
theorem isPrefix_of_lexeme? {cs lexeme : List Char} {kind : Kind}
    (h : lexeme? cs = some (kind, lexeme)) : lexeme <+: cs ∧ lexeme ≠ [] := by
  have hwhile : ∀ (c : Char) (rest : List Char) (p : Char → Bool),
      c :: rest.takeWhile p <+: c :: rest ∧ c :: rest.takeWhile p ≠ [] := by
    intro c rest p
    exact ⟨List.prefix_cons_inj c |>.mpr (List.takeWhile_prefix p), List.cons_ne_nil _ _⟩
  unfold lexeme? at h
  split at h
  · exact absurd h (by simp)
  · next c rest =>
      split at h
      · exact absurd h (by simp)
      · split at h
        · next hturnstile =>
            obtain ⟨-, rfl⟩ := Prod.mk.inj (Option.some.inj h)
            simp only [Bool.and_eq_true, decide_eq_true_eq] at hturnstile
            obtain ⟨rfl, hhead⟩ := hturnstile
            obtain ⟨tail, rfl⟩ := List.head?_eq_some_iff.mp hhead
            exact ⟨⟨tail, rfl⟩, List.cons_ne_nil _ _⟩
        · split at h
          · next name hname =>
              obtain ⟨-, rfl⟩ := Prod.mk.inj (Option.some.inj h)
              unfold ruleName? at hname
              have hfound := List.find?_some hname
              rw [Bool.and_eq_true] at hfound
              exact ⟨List.isPrefixOf_iff_prefix.mp hfound.1,
                ne_nil_of_mem_ruleNames name (List.mem_of_find?_eq_some hname)⟩
          · split at h
            · obtain ⟨-, rfl⟩ := Prod.mk.inj (Option.some.inj h)
              exact hwhile c rest _
            · split at h
              · obtain ⟨-, rfl⟩ := Prod.mk.inj (Option.some.inj h)
                exact hwhile c rest _
              · split at h
                · obtain ⟨-, rfl⟩ := Prod.mk.inj (Option.some.inj h)
                  exact hwhile c rest _
                · obtain ⟨kind', -, heq⟩ := Option.map_eq_some_iff.mp h
                  obtain ⟨-, rfl⟩ := Prod.mk.inj heq
                  exact ⟨⟨rest, rfl⟩, List.cons_ne_nil _ _⟩

/-- What is left behind a lexeme. -/
theorem lexeme_append_drop {c : Char} {rest lexeme : List Char} {kind : Kind}
    (h : lexeme? (c :: rest) = some (kind, lexeme)) :
    c :: rest = lexeme ++ rest.drop (lexeme.length - 1) := by
  obtain ⟨⟨tail, htail⟩, hne⟩ := isPrefix_of_lexeme? h
  cases lexeme with
  | nil => exact absurd rfl hne
  | cons d ds =>
      rw [List.cons_append] at htail
      obtain ⟨rfl, rfl⟩ := List.cons.inj htail
      rw [List.length_cons, Nat.add_sub_cancel, List.drop_left]
      rfl

/-- **Every token was found as a lexeme at its place in the text.** -/
theorem exists_lexeme?_of_mem_scan {t : Token} {offset : Nat} {cs : List Char}
    (h : t ∈ scan offset cs) (before : List Char) (hoffset : offset = byteLength before) :
    ∃ front after, before ++ cs = front ++ (t.text.toList ++ after)
      ∧ t.span = ⟨byteLength front, byteLength front + byteLength t.text.toList⟩
      ∧ lexeme? (t.text.toList ++ after) = some (t.kind, t.text.toList) := by
  fun_induction scan offset cs generalizing before with
  | case1 => exact absurd h (by simp)
  | case2 offset c rest hnone ih =>
      have hnext : offset + c.utf8Size = byteLength (before ++ [c]) := by
        rw [hoffset, byteLength_append]
        rfl
      have hfound := ih h _ hnext
      rwa [List.append_assoc] at hfound
  | case3 offset c rest kind lexeme hlexeme stop ih =>
      have htext := lexeme_append_drop hlexeme
      rcases List.mem_cons.mp h with rfl | hrest
      · rw [htext] at hlexeme ⊢
        dsimp only
        rw [String.toList_ofList]
        exact ⟨before, _, rfl, by rw [← hoffset], hlexeme⟩
      · have hnext : offset + byteLength lexeme = byteLength (before ++ lexeme) := by
          rw [byteLength_append, ← hoffset]
        have hfound := ih hrest _ hnext
        rwa [List.append_assoc, ← htext] at hfound

/-- **The span of a token marks its text**, which is not empty. -/
theorem marks_of_mem_scan {t : Token} {offset : Nat} {cs : List Char}
    (h : t ∈ scan offset cs) (before : List Char) (hoffset : offset = byteLength before) :
    t.span.Marks t.text.toList (before ++ cs) ∧ t.text.toList ≠ [] := by
  obtain ⟨front, after, htext, hspan, hlexeme⟩ := exists_lexeme?_of_mem_scan h before hoffset
  exact ⟨⟨front, after, htext, by rw [hspan], by rw [hspan]⟩, (isPrefix_of_lexeme? hlexeme).2⟩

theorem marks_of_mem_tokenize {t : Token} {text : String} (h : t ∈ tokenize text) :
    t.span.Marks t.text.toList text.toList ∧ t.text.toList ≠ [] :=
  marks_of_mem_scan h [] rfl

/-- **The tokens of a text stand one behind the other**: none is empty, none
starts before the text, and each ends before the next one starts. -/
theorem scan_ordered (offset : Nat) (cs : List Char) :
    ((scan offset cs).Pairwise fun t u => t.span.stop ≤ u.span.start)
      ∧ ∀ t ∈ scan offset cs, offset ≤ t.span.start ∧ t.span.start < t.span.stop := by
  fun_induction scan offset cs with
  | case1 => exact ⟨.nil, by simp⟩
  | case2 offset c rest hnone ih =>
      refine ⟨ih.1, fun t ht => ?_⟩
      have hafter := ih.2 t ht
      omega
  | case3 offset c rest kind lexeme hlexeme stop ih =>
      have hlength : 0 < byteLength lexeme := by
        cases lexeme with
        | nil => exact absurd rfl (isPrefix_of_lexeme? hlexeme).2
        | cons d ds =>
            have hpos := d.utf8Size_pos
            rw [byteLength_cons]
            omega
      have hstop : stop = offset + byteLength lexeme := rfl
      refine ⟨List.pairwise_cons.mpr ⟨fun u hu => (ih.2 u hu).1, ih.1⟩, fun t ht => ?_⟩
      rcases List.mem_cons.mp ht with rfl | hrest
      · show offset ≤ offset ∧ offset < stop
        omega
      · have hafter := ih.2 t hrest
        omega

/-! ## §3. Texts that are put together. -/

/-- A text that no lexeme before it goes on with: it starts with a character
that stands in no name and, but for its first character, in no rule name. -/
def Divides (cs : List Char) : Prop :=
  ∀ c ∈ cs.head?, isNameRest c = false ∧ c ≠ '-' ∧ c ≠ '~'

/-- A run of characters does not go on into a text that starts with another
kind. -/
theorem takeWhile_append_of_stop {p : Char → Bool} {as bs : List Char}
    (hbs : ∀ c ∈ bs.head?, p c = false) : (as ++ bs).takeWhile p = as.takeWhile p := by
  induction as with
  | nil =>
      cases bs with
      | nil => rfl
      | cons c bs => simp [hbs c rfl]
  | cons c as ih =>
      rw [List.cons_append, List.takeWhile_cons, List.takeWhile_cons, ih]

/-- Blanks, dots, colons, parentheses, brackets and strokes divide a text. -/
theorem divides_cons {c : Char} (hc : c ∈ [' ', '.', ':', '(', ')', '[', ']', '/'])
    (cs : List Char) : Divides (c :: cs) := by
  have hclass : ([' ', '.', ':', '(', ')', '[', ']', '/'].all fun d =>
      !isNameRest d && d != '-' && d != '~') = true := by decide
  have hthis := List.all_eq_true.mp hclass c hc
  intro d hd
  rw [← Option.some.inj hd]
  simpa [and_assoc] using hthis

theorem Divides.breaks {bs : List Char} (h : Divides bs) : Breaks bs :=
  fun c hc => (h c hc).1

/-- The first character of a text that is not empty is still the first. -/
theorem head?_append_any {as bs : List Char} {p : Char → Bool}
    (hbs : ∀ c ∈ bs.head?, p c = false) : (as ++ bs).head?.any p = as.head?.any p := by
  cases as with
  | nil =>
      cases bs with
      | nil => rfl
      | cons c bs => simpa using hbs c rfl
  | cons c as => rfl

/-- No rule name reaches into a dividing text. -/
theorem ruleName?_append {cs bs : List Char} (hne : cs ≠ []) (hbs : Divides bs) :
    ruleName? (cs ++ bs) = ruleName? cs := by
  have htails : (ruleNames.all fun name => name.tail.all fun c =>
      isNameRest c || c == '-' || c == '~') = true := by decide
  unfold ruleName?
  refine List.find?_congr fun name hname => ?_
  by_cases hlength : name.length ≤ cs.length
  · have hsame : name.isPrefixOf (cs ++ bs) = name.isPrefixOf cs := by
      rw [Bool.eq_iff_iff, List.isPrefixOf_iff_prefix, List.isPrefixOf_iff_prefix]
      exact ⟨fun h => List.prefix_of_prefix_length_le h (List.prefix_append _ _) hlength,
        fun h => h.trans (List.prefix_append _ _)⟩
    rw [hsame, List.drop_append_of_le_length hlength, head?_append_any hbs.breaks]
  · have hnot : name.isPrefixOf cs = false := by
      rw [← Bool.not_eq_true, List.isPrefixOf_iff_prefix]
      exact fun h => hlength h.length_le
    have hnot' : name.isPrefixOf (cs ++ bs) = false := by
      rw [← Bool.not_eq_true, List.isPrefixOf_iff_prefix]
      rintro ⟨tail, htail⟩
      -- The name would go on with the first character of the dividing text.
      obtain ⟨more, hmore⟩ : cs <+: name :=
        List.prefix_of_prefix_length_le ⟨bs, rfl⟩ ⟨tail, htail⟩ (by omega)
      rw [← hmore, List.append_assoc, List.append_cancel_left_eq] at htail
      cases more with
      | nil =>
          rw [← hmore, List.append_nil] at hlength
          exact hlength (Nat.le_refl _)
      | cons c more =>
          have hc := hbs c (by rw [← htail]; rfl)
          have hmem : c ∈ name.tail := by
            rw [← hmore, List.tail_append_of_ne_nil hne]
            exact List.mem_append_right _ List.mem_cons_self
          have hclass := List.all_eq_true.mp (List.all_eq_true.mp htails name hname) c hmem
          simp only [Bool.or_eq_true, beq_iff_eq, or_assoc] at hclass
          rcases hclass with hrest | hdash | htilde
          · rw [hc.1] at hrest
            exact Bool.noConfusion hrest
          · exact hc.2.1 hdash
          · exact hc.2.2 htilde
    rw [hnot, hnot']
    rfl

/-- **The first lexeme of a text does not depend on a dividing text behind
it.** -/
theorem lexeme?_append {cs bs : List Char} (hne : cs ≠ []) (hbs : Divides bs) :
    lexeme? (cs ++ bs) = lexeme? cs := by
  cases cs with
  | nil => exact absurd rfl hne
  | cons c rest =>
      have hdash : ((rest ++ bs).head? = some '-') = (rest.head? = some '-') := by
        cases rest with
        | nil =>
            rw [eq_iff_iff]
            refine ⟨fun h => absurd rfl (hbs '-' h).2.1, fun h => absurd h (by simp)⟩
        | cons d rest => rfl
      have hstart : ∀ d ∈ bs.head?, isNameStart d = false := by
        intro d hd
        have hthis := hbs.breaks d hd
        rw [isNameRest, Bool.or_eq_false_iff, Bool.or_eq_false_iff] at hthis
        exact hthis.1.1
      rw [List.cons_append, lexeme?, lexeme?, ← List.cons_append, ruleName?_append hne hbs,
        takeWhile_append_of_stop hbs.breaks, takeWhile_append_of_stop hbs.breaks.isDigit,
        head?_append_any hstart]
      simp only [hdash]

/-- **The tokens of a text and of a dividing text behind it** are those of the
one, then those of the other. -/
theorem scan_append {as bs : List Char} (hbs : Divides bs) (offset : Nat) :
    scan offset (as ++ bs) = scan offset as ++ scan (offset + byteLength as) bs := by
  fun_induction scan offset as with
  | case1 => rfl
  | case2 offset c rest hnone ih =>
      rw [List.cons_append, scan, ← List.cons_append, lexeme?_append (List.cons_ne_nil _ _) hbs,
        hnone]
      dsimp only
      rw [ih, byteLength_cons, Nat.add_assoc]
  | case3 offset c rest kind lexeme hlexeme stop ih =>
      have htext := lexeme_append_drop hlexeme
      have hlength : byteLength (c :: rest)
          = byteLength lexeme + byteLength (rest.drop (lexeme.length - 1)) := by
        rw [htext, byteLength_append]
      rw [List.cons_append, scan, ← List.cons_append, lexeme?_append (List.cons_ne_nil _ _) hbs,
        hlexeme]
      have hle : lexeme.length - 1 ≤ rest.length := by
        have hle := (isPrefix_of_lexeme? hlexeme).1.length_le
        rw [List.length_cons] at hle
        omega
      dsimp only
      rw [List.drop_append_of_le_length hle, ih, hlength, Nat.add_assoc, List.cons_append]

/-- A lexeme is a token, and the tokens behind it are those of the rest. -/
theorem scan_lexeme {cs rest : List Char} {kind : Kind}
    (h : lexeme? (cs ++ rest) = some (kind, cs)) (offset : Nat) :
    scan offset (cs ++ rest) = ⟨kind, String.ofList cs, ⟨offset, offset + byteLength cs⟩⟩
      :: scan (offset + byteLength cs) rest := by
  cases cs with
  | nil => exact ((isPrefix_of_lexeme? h).2 rfl).elim
  | cons c cs =>
      rw [List.cons_append] at h ⊢
      rw [scan, h]
      dsimp only
      rw [List.length_cons, Nat.add_sub_cancel, List.drop_left]

/-- A text that is one lexeme is one token. -/
theorem scan_of_lexeme? {cs : List Char} {kind : Kind} (h : lexeme? cs = some (kind, cs))
    (offset : Nat) :
    scan offset cs = [⟨kind, String.ofList cs, ⟨offset, offset + byteLength cs⟩⟩] := by
  have hend : lexeme? (cs ++ []) = some (kind, cs) := by rw [List.append_nil, h]
  have hscan := scan_lexeme hend offset
  rwa [List.append_nil, scan] at hscan

/-- Blanks are passed over. -/
theorem scan_blank (offset : Nat) (cs : List Char) :
    scan offset (' ' :: cs) = scan (offset + 1) cs := by
  have hnone : lexeme? (' ' :: cs) = none := by rw [lexeme?, if_pos (by decide)]
  rw [scan, hnone]
  rfl

/-- A sign before a text without dashes is a token of its own. -/
theorem scan_sign {c : Char} {kind : Kind} {cs : List Char} (hsign : sign? c = some kind)
    (hdash : '-' ∉ c :: cs) (offset : Nat) :
    scan offset (c :: cs) = ⟨kind, String.singleton c, ⟨offset, offset + c.utf8Size⟩⟩
      :: scan (offset + c.utf8Size) cs := by
  obtain ⟨hblank, hdigit, hstart⟩ := class_of_sign? hsign
  have hlexeme : lexeme? ([c] ++ cs) = some (kind, [c]) := by
    rw [List.singleton_append, lexeme?_of_no_dash hblank hdash]
    simp [hdigit, hstart, hsign]
  exact scan_lexeme hlexeme offset

/-- The token of a term. -/
theorem scan_term {t : Name} (ht : isTermText t = true) (offset : Nat) :
    scan offset t.toList = [⟨termKind t, t, ⟨offset, offset + byteLength t.toList⟩⟩] := by
  have hterm : lexeme? (t.toList ++ []) = some (termKind t, t.toList) :=
    lexeme?_term ht List.not_mem_nil (by simp [Breaks])
  rw [List.append_nil] at hterm
  have hscan := scan_of_lexeme? hterm offset
  rwa [String.ofList_toList] at hscan

/-- A text that is one lexeme, before a dividing text. -/
theorem scan_before {as bs : List Char} {kind : Kind} (h : lexeme? as = some (kind, as))
    (hbs : Divides bs) (offset : Nat) :
    scan offset (as ++ bs) = ⟨kind, String.ofList as, ⟨offset, offset + byteLength as⟩⟩
      :: scan (offset + byteLength as) bs := by
  rw [scan_append hbs, scan_of_lexeme? h]
  rfl

/-- The first token of a text that starts with a lexeme. -/
theorem scan_starts {cs : List Char} (h : (lexeme? cs).isSome = true) (offset : Nat) :
    ∃ t ∈ (scan offset cs).head?, t.span.start = offset := by
  obtain ⟨⟨kind, lexeme⟩, hlexeme⟩ := Option.isSome_iff_exists.mp h
  cases cs with
  | nil => exact absurd hlexeme (by simp [lexeme?])
  | cons c rest =>
      rw [scan, hlexeme]
      exact ⟨_, rfl, rfl⟩

end Token

end NaturalDeduction
