/-
  NaturalDeduction.Proofs.Locality
  ────────────────────────────────
  **THE TOKENS OF A PART OF A TEXT ARE THE TOKENS THAT LIE IN THE PART**, if it
  starts where a token starts and ends where a token ends.

  Both ends of the part are places where the scan of the whole halts, so the text
  can be cut there.  What a proof line calls its formula is such a part: it is read
  again, as a text of its own, as the tokens that the line was cut into.  Main
  statements:

    • `scan_add` — the tokens move along with the text that they are in,
    • `filter_isWithin_scan` — the tokens of a part that cuts no token,
    • `ProofLine.exists_tokens_of_parse` — which tokens a line is cut into,
    • `tokenize_local` — a part that reaches from token to token, and the formula
      of a line.
-/
import Mathlib.Data.List.Pairwise
import NaturalDeduction.Proofs.LineSpans
import NaturalDeduction.Proofs.MovedTokens
import NaturalDeduction.Proofs.TokenBoundaries

namespace NaturalDeduction

namespace Token

/-! ## §1. Parts of a text. -/

/-- The token as seen from a text that starts so many bytes earlier. -/
def forward (bytes : Nat) (t : Token) : Token := t.move (·.forward bytes)

/-- **The tokens move along with the text that they are in.** -/
theorem scan_add (offset bytes : Nat) (cs : List Char) :
    scan (offset + bytes) cs = (scan offset cs).map (forward bytes) := by
  fun_induction scan offset cs with
  | case1 => rw [scan, List.map_nil]
  | case2 offset c rest hnone ih => rw [scan, hnone, ← ih, Nat.add_right_comm]
  | case3 offset c rest kind lexeme hlexeme stop ih =>
      have hstop : offset + bytes + byteLength lexeme = stop + bytes := Nat.add_right_comm ..
      rw [scan, hlexeme, List.map_cons, ← ih]
      dsimp only
      rw [hstop]
      rfl

/-- No token lies on both sides of the place. -/
def UncutAt (tokens : List Token) (place : Nat) : Prop :=
  ∀ t ∈ tokens, t.span.stop ≤ place ∨ place ≤ t.span.start

/-- Does the token lie between two places? -/
def isWithin (start stop : Nat) (t : Token) : Bool := start ≤ t.span.start && t.span.stop ≤ stop

/-- What is found of a list of which only the middle part has the property. -/
theorem filter_middle {α : Type} {p : α → Bool} {as bs cs : List α} (has : ∀ a ∈ as, p a = false)
    (hbs : ∀ b ∈ bs, p b = true) (hcs : ∀ c ∈ cs, p c = false) :
    (as ++ (bs ++ cs)).filter p = bs := by
  have hnone : as.filter p = [] := List.filter_eq_nil_iff.mpr (by simpa using has)
  have hnone' : cs.filter p = [] := List.filter_eq_nil_iff.mpr (by simpa using hcs)
  rw [List.filter_append, List.filter_append, List.filter_eq_self.mpr hbs, hnone, hnone',
    List.nil_append, List.append_nil]

/-- **The tokens of a part of a text are those of the whole that lie in it**, if
neither end of the part cuts a token in two. -/
theorem filter_isWithin_scan {front part after : List Char}
    (hstart : UncutAt (scan 0 (front ++ (part ++ after))) (byteLength front))
    (hstop : UncutAt (scan 0 (front ++ (part ++ after))) (byteLength front + byteLength part)) :
    (scan 0 (front ++ (part ++ after))).filter
        (isWithin (byteLength front) (byteLength front + byteLength part))
      = (scan 0 part).map (forward (byteLength front)) := by
  have hfront : ComesTo (part ++ after) front :=
    comesTo_of_uncut 0 fun t ht => by rw [Nat.zero_add]; exact hstart t ht
  have hcut := scan_append_of_comesTo hfront 0
  rw [Nat.zero_add] at hcut
  have hpart : ComesTo after part := comesTo_of_uncut (byteLength front) fun t ht =>
    hstop t (by rw [hcut]; exact List.mem_append_right _ ht)
  rw [hcut, scan_append_of_comesTo hpart, ← scan_add, Nat.zero_add]
  apply filter_middle
  · intro t ht
    have hplace := (scan_ordered 0 front).2 t ht
    have hend := (marks_of_mem_scan ht [] rfl).1.stop_le
    rw [List.nil_append] at hend
    simp only [isWithin, Bool.and_eq_false_iff, decide_eq_false_iff_not]
    omega
  · intro t ht
    have hplace := (scan_ordered (byteLength front) part).2 t ht
    have hend := (marks_of_mem_scan ht front rfl).1.stop_le
    rw [byteLength_append] at hend
    simp only [isWithin, Bool.and_eq_true, decide_eq_true_eq]
    omega
  · intro t ht
    have hplace := (scan_ordered _ after).2 t ht
    simp only [isWithin, Bool.and_eq_false_iff, decide_eq_false_iff_not]
    omega

/-! ## §2. From one token to another. -/

/-- A list is cut before one of its places and behind a later one. -/
theorem extract_cut {α : Type} {l : List α} {i j : Nat} {first last : α} (hij : i ≤ j)
    (hi : l[i]? = some first) (hj : l[j]? = some last) :
    l.take i ++ (l.extract i (j + 1) ++ l.drop (j + 1)) = l
      ∧ (l.extract i (j + 1)).head? = some first
      ∧ (l.extract i (j + 1)).getLast? = some last := by
  rw [List.extract_eq_take_drop]
  refine ⟨?_, ?_, ?_⟩
  · have hdrop : l.drop (j + 1) = (l.drop i).drop (j + 1 - i) := by
      rw [List.drop_drop]
      congr 1
      omega
    rw [hdrop, List.take_append_drop, List.take_append_drop]
  · rw [List.head?_eq_getElem?, List.getElem?_take_of_lt (by omega), List.getElem?_drop]
    exact hi
  · have hlt := (List.getElem?_eq_some_iff.mp hj).1
    rw [List.getLast?_eq_getElem?, List.length_take, List.length_drop,
      List.getElem?_take_of_lt (by omega), List.getElem?_drop, ← hj]
    congr 1
    omega

section

variable {text : String} {before run behind : List Token} {t u first last : Token}

/-- Of two tokens of a text, one stands before the other. -/
theorem apart_of_mem_tokenize (ht : t ∈ tokenize text) (hu : u ∈ tokenize text) (hne : t ≠ u) :
    t.span.stop ≤ u.span.start ∨ u.span.stop ≤ t.span.start := by
  have hsymm : Std.Symm fun a b : Token =>
      a.span.stop ≤ b.span.start ∨ b.span.stop ≤ a.span.start := ⟨fun _ _ h => h.symm⟩
  have hordered : (tokenize text).Pairwise fun a b =>
      a.span.stop ≤ b.span.start ∨ b.span.stop ≤ a.span.start :=
    (scan_ordered 0 text.toList).1.imp Or.inl
  exact hordered.forall ht hu hne

/-- Neither the start nor the end of a token cuts another one. -/
theorem uncutAt_of_mem (hu : u ∈ tokenize text) :
    UncutAt (tokenize text) u.span.start ∧ UncutAt (tokenize text) u.span.stop := by
  have hplaced := (scan_ordered 0 text.toList).2
  refine ⟨fun t ht => ?_, fun t ht => ?_⟩
  all_goals
    have htPlace := hplaced t ht
    have huPlace := hplaced u hu
    by_cases hself : t = u
    · subst hself
      omega
    · have hapart := apart_of_mem_tokenize ht hu hself
      omega

/-- A run of tokens is what lies between the start of its first and the end of its
last one. -/
theorem filter_isWithin_tokenize (h : tokenize text = before ++ (run ++ behind))
    (hfirst : run.head? = some first) (hlast : run.getLast? = some last) :
    (tokenize text).filter (isWithin first.span.start last.span.stop) = run := by
  obtain ⟨hordered, hplaced⟩ := scan_ordered 0 text.toList
  rw [show scan 0 text.toList = before ++ (run ++ behind) from h] at hordered hplaced
  obtain ⟨-, hrest, hbefore⟩ := List.pairwise_append.mp hordered
  obtain ⟨hrun, -, hbehind⟩ := List.pairwise_append.mp hrest
  rw [h]
  apply filter_middle
  · intro t ht
    have hplace := (hplaced t (List.mem_append_left _ ht)).2
    have hle := hbefore t ht first (List.mem_append_left _ (List.mem_of_head? hfirst))
    simp only [isWithin, Bool.and_eq_false_iff, decide_eq_false_iff_not]
    omega
  · intro t ht
    have hplace := (hplaced t (by simp [ht])).2
    have hfromFirst : first.span.start ≤ t.span.start := by
      obtain ⟨tail, rfl⟩ := List.head?_eq_some_iff.mp hfirst
      have hfirstPlace := (hplaced first (by simp)).2
      rcases List.mem_cons.mp ht with rfl | htail
      · exact Nat.le_refl _
      · have hle := (List.pairwise_cons.mp hrun).1 t htail
        omega
    have htoLast : t.span.stop ≤ last.span.stop := by
      obtain ⟨init, rfl⟩ := List.getLast?_eq_some_iff.mp hlast
      have hlastPlace := (hplaced last (by simp)).2
      rcases List.mem_append.mp ht with hinit | hself
      · have hle := (List.pairwise_append.mp hrun).2.2 t hinit last (List.mem_singleton_self last)
        omega
      · rw [List.mem_singleton.mp hself]
    simp only [isWithin, Bool.and_eq_true, decide_eq_true_eq]
    exact ⟨hfromFirst, htoLast⟩
  · intro t ht
    have hplace := (hplaced t (by simp [ht])).2
    have hle := hbehind last (List.mem_of_getLast? hlast) t ht
    simp only [isWithin, Bool.and_eq_false_iff, decide_eq_false_iff_not]
    omega

/-- The first of some tokens starts before the last of them ends. -/
theorem start_le_stop (h : tokenize text = before ++ (run ++ behind))
    (hfirst : run.head? = some first) (hlast : run.getLast? = some last) :
    first.span.start ≤ last.span.stop := by
  have hmem : first ∈ run := List.mem_of_head? hfirst
  rw [← filter_isWithin_tokenize h hfirst hlast] at hmem
  obtain ⟨htokens, hwithin⟩ := List.mem_filter.mp hmem
  have hplace := (scan_ordered 0 text.toList).2 first htokens
  simp only [isWithin, Bool.and_eq_true, decide_eq_true_eq] at hwithin
  omega

/-- **The tokens of a part that reaches from one token to another** are those from
the one to the other. -/
theorem tokenize_part (h : tokenize text = before ++ (run ++ behind))
    (hfirst : run.head? = some first) (hlast : run.getLast? = some last) :
    (tokenize (String.ofList (Span.slice ⟨first.span.start, last.span.stop⟩ text.toList))).map
      (forward first.span.start) = run := by
  have hrun := filter_isWithin_tokenize h hfirst hlast
  have hmem : ∀ t ∈ run, t ∈ tokenize text := by
    intro t ht
    rw [h]
    exact List.mem_append_right _ (List.mem_append_left _ ht)
  have hfirstMem := hmem first (List.mem_of_head? hfirst)
  have hlastMem := hmem last (List.mem_of_getLast? hlast)
  have hle := start_le_stop h hfirst hlast
  -- The part stands between two characters of the text, so the text can be cut around it.
  have hfits : (⟨first.span.start, last.span.stop⟩ : Span).Fits text.toList :=
    Span.fits_of_boundaries hle (marks_of_mem_tokenize hfirstMem).1.isBoundary_start
      (marks_of_mem_tokenize hlastMem).1.isBoundary_stop
  obtain ⟨part, hmarks⟩ := hfits
  rw [Span.slice_of_marks hmarks]
  obtain ⟨front, after, htext, hstart, hstop⟩ := hmarks
  dsimp only at hstart hstop
  have hstartCut := (uncutAt_of_mem hfirstMem).1
  have hstopCut := (uncutAt_of_mem hlastMem).2
  have htokens : tokenize text = scan 0 (front ++ (part ++ after)) := by rw [← htext]; rfl
  rw [htokens, hstart] at hstartCut
  rw [htokens, hstop] at hstopCut
  rw [← hrun, htokens, hstart, hstop, filter_isWithin_scan hstartCut hstopCut]
  show (scan 0 (String.ofList part).toList).map _ = _
  rw [String.toList_ofList]

end

end Token

/-! ## §3. The tokens of a proof line. -/

/-- The tokens of a proof line, part by part. -/
structure LineTokens where
  number : Token
  dot : Token
  bars : List Token
  flag : Option Token
  formula : List Token
  rule : Token
  colon : Token
  citations : List Token

/-- The tokens of a line in order. -/
def LineTokens.all (parts : LineTokens) : List Token :=
  parts.number :: parts.dot :: (parts.bars ++ (parts.flag.toList ++
    (parts.formula ++ parts.rule :: parts.colon :: parts.citations)))

/-- **These are the tokens that a line was cut into**: the bars are as many as its
depth, a token stands before the formula if it has a flag, and the first colon
stands behind the rule. -/
structure LineTokens.MakeUp (parts : LineTokens) (line : ProofLine) : Prop where
  number : parts.number.number? = some line.number
  dot : parts.dot.kind = .dot
  bars : ∀ t ∈ parts.bars, t.kind = .bar
  depth : parts.bars.length = line.depth
  flag : parts.flag.map Token.text = line.flag
  beforeColon : ∀ t ∈ parts.flag.toList ++ parts.formula, t.kind ≠ .colon
  rule : ProofLine.isRuleText parts.rule = true ∧ parts.rule.text = line.ruleText
  colon : parts.colon.kind = .colon

namespace ProofLine

variable {raw : String} {line : ProofLine}

/-- The tokens behind the bars: what stands before the rule, the rule, and the
colon. -/
theorem tokens_around_colon {body citations : List Token} {rule colon : Token}
    (hcolon : body.dropWhile isBeforeColon = colon :: citations)
    (hrule : (body.takeWhile isBeforeColon).getLast? = some rule) :
    (body.takeWhile isBeforeColon).dropLast ++ rule :: colon :: citations = body
      ∧ colon.kind = .colon := by
  constructor
  · calc (body.takeWhile isBeforeColon).dropLast ++ rule :: colon :: citations
        = ((body.takeWhile isBeforeColon).dropLast ++ [rule]) ++ colon :: citations := by simp
      _ = body.takeWhile isBeforeColon ++ body.dropWhile isBeforeColon := by
          rw [List.dropLast_append_getLast? _ hrule, hcolon]
      _ = body := List.takeWhile_append_dropWhile
  · have hhead := List.head?_dropWhile_not isBeforeColon body
    rw [hcolon] at hhead
    simpa [isBeforeColon] using hhead

/-- **Which tokens a line is cut into**, and that its formula is what stands from
the first to the last of those of the formula. -/
theorem exists_tokens_of_parse (h : parse raw = .ok line) :
    ∃ parts : LineTokens, parts.all = Token.tokenize raw ∧ parts.MakeUp line
      ∧ ∃ first last, parts.formula.head? = some first ∧ parts.formula.getLast? = some last
        ∧ line.spans.formula = first.span.through last.span
        ∧ line.formulaText = String.ofList (line.spans.formula.slice raw.toList) := by
  unfold parse at h
  dsimp only at h
  split at h
  · exact absurd h (by simp)
  · next n afterDot hnumbered =>
      obtain ⟨number, dot, htokens, -, hnumber, hdot⟩ := numbered_eq_ok_iff.mp hnumbered
      split at h
      · exact absurd h (by simp)
      · next colon citations hcolon =>
          split at h
          · exact absurd h (by simp)
          · next rule hrule =>
              split at h
              · next hruleText =>
                  split at h
                  · next first last hfirst hlast =>
                      obtain rfl := Except.ok.inj h
                      obtain ⟨hafter, hcolonKind⟩ := tokens_around_colon hcolon hrule
                      obtain ⟨flag, hflag, hflagText⟩ := exists_flag_of_splitFlag
                        ((afterDot.ahead.dropWhile isBar).takeWhile isBeforeColon).dropLast
                      refine ⟨⟨number, dot, afterDot.ahead.takeWhile isBar, flag, _, rule, colon,
                        citations⟩, ?_, ?_, first, last, hfirst, hlast, rfl, rfl⟩
                      · show _ = (Cursor.ofText raw).ahead
                        rw [htokens, LineTokens.all]
                        dsimp only
                        rw [← List.append_assoc flag.toList, hflag, hafter,
                          List.takeWhile_append_dropWhile]
                      · refine ⟨hnumber, hdot, ?_, rfl, hflagText, ?_, ⟨hruleText, rfl⟩, hcolonKind⟩
                        · intro t ht
                          have hbar : isBar t = true := List.mem_takeWhile_imp ht
                          exact of_decide_eq_true hbar
                        · intro t ht
                          rw [hflag] at ht
                          have hbefore := List.mem_takeWhile_imp (List.dropLast_subset _ ht)
                          simpa [isBeforeColon] using hbefore
                  · exact absurd h (by simp)
              · exact absurd h (by simp)

end ProofLine

namespace Token

/-- **Cutting a part out of a text does not change its tokens**, if it reaches from
the start of one token to the end of another: they are the tokens of the text from
the one to the other, less the bytes before the part.  So the formula of a proof
line, read by itself, has the tokens that the line was cut into. -/
theorem tokenize_local (text : String) :
    (∀ i j first last, i ≤ j → (tokenize text)[i]? = some first → (tokenize text)[j]? = some last →
      (tokenize (String.ofList (Span.slice ⟨first.span.start, last.span.stop⟩ text.toList))).map
          (forward first.span.start)
        = (tokenize text).extract i (j + 1))
    ∧ ∀ line, ProofLine.parse text = .ok line →
      ∃ parts : LineTokens, parts.all = tokenize text ∧ parts.MakeUp line
        ∧ (tokenize line.formulaText).map (forward line.spans.formula.start) = parts.formula := by
  constructor
  · intro i j first last hij hi hj
    obtain ⟨hsplit, hfirst, hlast⟩ := extract_cut hij hi hj
    exact tokenize_part hsplit.symm hfirst hlast
  · intro line hline
    obtain ⟨parts, hall, hparts, first, last, hfirst, hlast, hspan, htext⟩ :=
      ProofLine.exists_tokens_of_parse hline
    refine ⟨parts, hall, hparts, ?_⟩
    have hsplit : tokenize text = (parts.number :: parts.dot :: (parts.bars ++ parts.flag.toList))
        ++ (parts.formula ++ parts.rule :: parts.colon :: parts.citations) := by
      rw [← hall]
      simp [LineTokens.all]
    have hle : first.span.start ≤ last.span.stop := start_le_stop hsplit hfirst hlast
    have hthrough : first.span.through last.span = ⟨first.span.start, last.span.stop⟩ := by
      unfold Span.through
      rw [Nat.max_eq_left hle]
    rw [htext, hspan, hthrough]
    exact tokenize_part hsplit hfirst hlast

/-- What could be taken for the rule `v-e` is none, with the numeral behind it or
cut off before the turnstile; and a formula ends where the word of its rule begins. -/
theorem tokenize_local_glued :
    (tokenize "v-e2").map (forward 2) = (tokenize "P v-e2|-3").extract 1 3
      ∧ ∃ (line : ProofLine) (parts : LineTokens),
        ProofLine.parse "2.|z P(z)&Q-mt:1" = .ok line ∧ line.formulaText = "P(z)&Q"
        ∧ parts.all = tokenize "2.|z P(z)&Q-mt:1" ∧ parts.MakeUp line
        ∧ (tokenize line.formulaText).map (forward 5) = parts.formula := by
  constructor
  · exact (tokenize_local "P v-e2|-3").1 1 2 ⟨.identifier, "v", ⟨2, 3⟩⟩
      ⟨.dashedWord, "-e2", ⟨3, 6⟩⟩ (by decide) (by decide +kernel) (by decide +kernel)
  · let spans : LineSpans := ⟨⟨0, 16⟩, ⟨5, 11⟩, ⟨11, 14⟩, ⟨15, 16⟩⟩
    have hline : ProofLine.parse "2.|z P(z)&Q-mt:1"
        = .ok ⟨2, 1, some "z", "P(z)&Q", "-mt", "1", spans⟩ := by decide +kernel
    obtain ⟨parts, hall, hparts, htokens⟩ := (tokenize_local "2.|z P(z)&Q-mt:1").2 _ hline
    exact ⟨_, parts, hline, rfl, hall, hparts, htokens⟩

end Token

end NaturalDeduction
