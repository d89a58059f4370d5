/-
  NaturalDeduction.Proofs.BehindColon
  ───────────────────────────────────
  **WHAT STANDS BEHIND THE COLON OF A LINE** is its citations, and nothing else of
  the line depends on it.

  The colon cuts the line: no lexeme goes on with it, and before the first colon
  there is no token of its kind.  So the number, the bars, the flag, the formula and
  the rule are read from what stands before it, whatever comes after.  The citations
  are the pieces between commas; the blanks around them count for nothing.  Main
  statements:

    • `ProofLine.readsFront_of_parse`, `ProofLine.exists_parse_of_readsFront` — all
      but the citations is read from before the colon,
    • `Citation.parseList_trim` — the citations, piece by piece.
-/
import NaturalDeduction.Proofs.LineSpans
import NaturalDeduction.Proofs.Spacing
import NaturalDeduction.Proofs.WrittenLines

namespace NaturalDeduction

/-! ## §1. The tokens before a colon. -/

namespace Token

theorem lexeme?_colon (cs : List Char) : lexeme? (':' :: cs) = some (.colon, [':']) := by
  obtain ⟨hblank, hdigit, hstart⟩ := class_of_sign? (show sign? ':' = some .colon from rfl)
  have hname : ruleName? (':' :: cs) = none := ruleName?_of_head (by decide) cs
  unfold lexeme?
  simp [hblank, hdigit, hstart, hname, sign?]

/-- The token of a colon at a place. -/
def colonAt (place : Nat) : Token := ⟨.colon, ":", ⟨place, place + 1⟩⟩

/-- **A colon cuts the tokens of a text.** -/
theorem scan_colon (front after : List Char) :
    scan 0 (front ++ ':' :: after)
      = scan 0 front ++ colonAt (byteLength front) :: scan (byteLength front + 1) after := by
  have hdivides : Divides (':' :: after) := divides_cons (by simp) after
  rw [scan_append hdivides, Nat.zero_add]
  congr 1
  exact @scan_lexeme [':'] after .colon (lexeme?_colon after) (byteLength front)

theorem eq_colon_of_sign? {c : Char} (h : sign? c = some .colon) : c = ':' := by
  unfold sign? at h
  split at h
  all_goals first | rfl | exact absurd h (by decide)

/-- What is recognised as a colon is one. -/
theorem Recognised.eq_colon {lexeme rest : List Char} (h : Recognised .colon lexeme rest) :
    lexeme = [':'] := by
  generalize hkind : Kind.colon = kind at h
  cases h with
  | turnstile | ruleName | dashedWord | identifier => exact absurd hkind (by decide)
  | digits =>
      split at hkind
      · exact absurd hkind (by decide)
      · exact absurd hkind (by decide)
  | @sign kind c rest hsign _ _ =>
      rw [← hkind] at hsign
      rw [eq_colon_of_sign? hsign]

/-- A text without a colon has no token of that kind. -/
theorem kind_ne_colon_of_mem_scan {cs : List Char} (hcs : ':' ∉ cs) {t : Token}
    (ht : t ∈ scan 0 cs) : t.kind ≠ .colon := by
  intro hkind
  obtain ⟨front, after, htext, -, hlexeme⟩ := exists_lexeme?_of_mem_scan ht [] rfl
  rw [hkind] at hlexeme
  have hcolon := (recognised_of_lexeme? hlexeme).eq_colon
  rw [List.nil_append, hcolon] at htext
  exact hcs (htext ▸ by simp)

end Token

/-! ## §2. What is read from before the colon. -/

namespace ProofLine

open Token (scan)

/-- **All of a line but its citations can be read from this text**, its tokens being
a number, a dot, bars, a flag perhaps, a formula and a rule. -/
def ReadsFront (front : List Char) (line : ProofLine) : Prop :=
  ∃ number dot body rule first last formula, scan 0 front = number :: dot :: body
    ∧ number.number? = some line.number ∧ dot.kind = .dot
    ∧ line.depth = (body.takeWhile isBar).length
    ∧ (body.dropWhile isBar).getLast? = some rule ∧ isRuleText rule = true
    ∧ line.ruleText = rule.text
    ∧ splitFlag (body.dropWhile isBar).dropLast = (line.flag, formula)
    ∧ formula.head? = some first ∧ formula.getLast? = some last
    ∧ line.formulaText = String.ofList ((first.span.through last.span).slice front)

variable {front after : List Char} {line : ProofLine}

/-- The number and the dot stand before the colon, if they are there. -/
theorem exists_of_append_colon {tokens body behind : List Token} {number dot colon : Token}
    (hcolon : colon.kind = .colon) (h : tokens ++ colon :: behind = number :: dot :: body)
    (hnumber : number.number?.isSome = true) (hdot : dot.kind = .dot) :
    ∃ body', tokens = number :: dot :: body' ∧ body = body' ++ colon :: behind := by
  cases tokens with
  | nil =>
      obtain ⟨rfl, -⟩ := List.cons.inj h
      exact absurd hnumber (by simp [Token.number?, hcolon])
  | cons first tokens =>
      obtain ⟨rfl, hrest⟩ := List.cons.inj h
      cases tokens with
      | nil =>
          obtain ⟨rfl, -⟩ := List.cons.inj hrest
          exact absurd (hcolon.symm.trans hdot) (by decide)
      | cons second tokens =>
          obtain ⟨rfl, hbody⟩ := List.cons.inj hrest
          exact ⟨tokens, rfl, hbody.symm⟩

/-- What comes behind the dot of a line is cut at its bars and at its colon. -/
theorem cut_body {body : List Token} {colon : Token} (hcolon : colon.kind = .colon)
    (hbody : ∀ t ∈ body, t.kind ≠ .colon) (behind : List Token) :
    (body ++ colon :: behind).takeWhile isBar = body.takeWhile isBar
      ∧ (body ++ colon :: behind).dropWhile isBar = body.dropWhile isBar ++ colon :: behind
      ∧ (body.dropWhile isBar ++ colon :: behind).takeWhile isBeforeColon = body.dropWhile isBar
      ∧ (body.dropWhile isBar ++ colon :: behind).dropWhile isBeforeColon = colon :: behind := by
  have hbars : ∀ t ∈ (body.dropWhile isBar ++ colon :: behind).head?, isBar t = false := by
    intro t ht
    cases hrest : body.dropWhile isBar with
    | nil =>
        rw [hrest] at ht
        rw [← Option.some.inj ht]
        simp [isBar, hcolon]
    | cons u us =>
        rw [hrest] at ht
        obtain rfl : u = t := Option.some.inj ht
        have hhead := List.head?_dropWhile_not isBar body
        rw [hrest] at hhead
        simpa using hhead
  have hsplit : body ++ colon :: behind
      = body.takeWhile isBar ++ (body.dropWhile isBar ++ colon :: behind) := by
    rw [← List.append_assoc, List.takeWhile_append_dropWhile]
  have htaken : ∀ t ∈ body.takeWhile isBar, isBar t = true :=
    fun _ ht => List.mem_takeWhile_imp ht
  obtain ⟨htake, hdrop⟩ := cut_append htaken hbars
  have hbefore : ∀ t ∈ body.dropWhile isBar, isBeforeColon t = true := fun t ht =>
    decide_eq_true (hbody t ((List.dropWhile_suffix _).subset ht))
  have hend : ∀ t ∈ (colon :: behind).head?, isBeforeColon t = false := by
    intro t ht
    rw [← Option.some.inj ht]
    simp [isBeforeColon, hcolon]
  rw [hsplit]
  exact ⟨htake, hdrop, cut_append hbefore hend⟩

/-- The tokens behind the dot of a text without a colon. -/
theorem kind_ne_colon_of_body (hfront : ':' ∉ front) {number dot : Token} {body : List Token}
    (htokens : scan 0 front = number :: dot :: body) : ∀ t ∈ body, t.kind ≠ .colon :=
  fun _ ht => Token.kind_ne_colon_of_mem_scan hfront
    (htokens ▸ List.mem_cons_of_mem _ (List.mem_cons_of_mem _ ht))

/-- What reaches from one token before the colon to another is read there. -/
theorem slice_front {first last : Token} (hfirst : first ∈ scan 0 front)
    (hlast : last ∈ scan 0 front) (behind : List Char) :
    (first.span.through last.span).slice (front ++ behind)
      = (first.span.through last.span).slice front := by
  have hfits : ∀ t ∈ scan 0 front, t.span.Fits front := fun t ht =>
    ⟨t.text.toList, (Token.marks_of_mem_scan ht [] rfl).1⟩
  obtain ⟨before, after, hcut, hstart, hstop⟩ :=
    ((hfits first hfirst).through (hfits last hlast)).marks_slice
  refine Span.slice_of_marks ⟨before, after ++ behind, ?_, hstart, hstop⟩
  -- The slice itself speaks of `front` too, and stays as it is.
  nth_rewrite 1 [hcut]
  simp only [List.append_assoc]

/-- What stands behind the colon. -/
theorem dropBytes_colon (front after : List Char) :
    dropBytes (Token.colonAt (byteLength front)).span.stop (front ++ ':' :: after) = after := by
  have hcut := dropBytes_append (front ++ [':']) after
  rw [byteLength_append, List.append_assoc] at hcut
  exact hcut

/-- **The parts of a line are read from before its first colon**, and its citations
from behind it. -/
theorem readsFront_of_parse (hfront : ':' ∉ front)
    (h : parse (String.ofList (front ++ ':' :: after)) = .ok line) :
    line.ReadsFront front ∧ line.citationText = String.ofList (trim after) := by
  unfold parse at h
  simp only [String.toList_ofList] at h
  split at h
  · exact absurd h (by simp)
  · next n afterDot hnumbered =>
      obtain ⟨number, dot, htokens, -, hnumber, hdot⟩ := numbered_eq_ok_iff.mp hnumbered
      simp only [Cursor.ofText, Token.tokenize, String.toList_ofList, Token.scan_colon] at htokens
      obtain ⟨body, hbody, hahead⟩ :=
        exists_of_append_colon rfl htokens (by rw [hnumber]; rfl) hdot
      rw [hahead] at h
      obtain ⟨hdepth, hrest, hbefore, hafter⟩ := cut_body
        (show (Token.colonAt (byteLength front)).kind = .colon from rfl)
        (kind_ne_colon_of_body hfront hbody) (scan (byteLength front + 1) after)
      rw [hrest, hafter, hbefore] at h
      dsimp only at h
      split at h
      · exact absurd h (by simp)
      · next rule hrule =>
          split at h
          · next hruleText =>
              split at h
              · next first last hfirst hlast =>
                  obtain rfl := Except.ok.inj h
                  have hmem : ∀ t ∈ (splitFlag (body.dropWhile isBar).dropLast).2,
                      t ∈ scan 0 front := by
                    intro t ht
                    have hdrop := List.dropLast_subset _ ((splitFlag_suffix _).subset ht)
                    rw [hbody]
                    exact List.mem_cons_of_mem _
                      (List.mem_cons_of_mem _ ((List.dropWhile_suffix _).subset hdrop))
                  refine ⟨⟨number, dot, body, rule, first, last, _, hbody, hnumber, hdot,
                    congrArg List.length hdepth, hrule, hruleText, rfl, rfl, hfirst, hlast, ?_⟩, ?_⟩
                  · rw [slice_front (hmem first (List.mem_of_head? hfirst))
                      (hmem last (List.mem_of_getLast? hlast))]
                  · dsimp only
                    rw [dropBytes_colon]
              · exact absurd h (by simp)
          · exact absurd h (by simp)

/-- **A line can be read with anything behind the colon.** -/
theorem exists_parse_of_readsFront (hfront : ':' ∉ front) (h : line.ReadsFront front)
    (after : List Char) :
    ∃ spans, parse (String.ofList (front ++ ':' :: after))
      = .ok { line with citationText := String.ofList (trim after), spans } := by
  obtain ⟨number, dot, body, rule, first, last, formula, hbody, hnumber, hdot, hdepth, hrule,
    hruleText, hname, hflag, hfirst, hlast, htext⟩ := h
  obtain ⟨hbars, hrest, hbefore, hafter⟩ := cut_body
    (show (Token.colonAt (byteLength front)).kind = .colon from rfl)
    (kind_ne_colon_of_body hfront hbody) (scan (byteLength front + 1) after)
  have hnumbered : numbered (Cursor.ofText (String.ofList (front ++ ':' :: after)))
      = .ok (line.number, ⟨body ++ Token.colonAt (byteLength front)
          :: scan (byteLength front + 1) after, byteLength (front ++ ':' :: after)⟩) := by
    refine numbered_eq_ok_iff.mpr ⟨number, dot, ?_, ?_, hnumber, hdot⟩
    · simp [Cursor.ofText, Token.tokenize, Token.scan_colon, hbody]
    · simp [Cursor.ofText]
  have hmem : ∀ t ∈ formula, t ∈ scan 0 front := by
    intro t ht
    have hsuffix := splitFlag_suffix (body.dropWhile isBar).dropLast
    rw [hflag] at hsuffix
    have hdrop := List.dropLast_subset _ (hsuffix.subset ht)
    rw [hbody]
    exact List.mem_cons_of_mem _
      (List.mem_cons_of_mem _ ((List.dropWhile_suffix _).subset hdrop))
  unfold parse
  simp only [String.toList_ofList, hnumbered, hrest, hafter,
    hbefore, hrule, hruleText, hflag, hfirst, hlast, hbars, dropBytes_colon,
    slice_front (hmem first (List.mem_of_head? hfirst)) (hmem last (List.mem_of_getLast? hlast)),
    if_true, ← hdepth, ← hname, ← htext]
  exact ⟨_, rfl⟩

end ProofLine

/-! ## §3. The pieces of a list of citations. -/

namespace Citation

open Token (words)

/-- A citation does not depend on where its tokens stand. -/
theorem ofTokens?_map_move (σ : Span → Span) (tokens : List Token) :
    ofTokens? (tokens.map (Token.move σ)) = ofTokens? tokens :=
  match tokens with
  | [] | [_] | [_, _] | [_, _, _] | [_, _, _, _] | [_, _, _, _, _] | [_, _, _, _, _, _]
  | _ :: _ :: _ :: _ :: _ :: _ :: _ :: _ => rfl

/-- The words of a piece of text decide what it cites. -/
theorem parse?_of_words {piece piece' : List Char} (h : words piece' = words piece) :
    parse? piece' = parse? piece := by
  have hwords : (Token.tokenize (String.ofList piece')).map Token.word
      = (Token.tokenize (String.ofList piece)).map Token.word := by
    simpa only [Token.tokenize, String.toList_ofList, words] using h
  obtain ⟨σ, -, htokens⟩ := Token.exists_move_tokenize hwords
  simp only [Token.tokenize, String.toList_ofList] at htokens
  unfold parse?
  rw [htokens, ofTokens?_map_move]

variable {run : List Char}

/-- Blanks before a list change no piece of it. -/
theorem map_parse?_blanks_append (hrun : ∀ c ∈ run, isBlank c = true) (cs : List Char) :
    ((run ++ cs).splitOn ',').map parse? = (cs.splitOn ',').map parse? := by
  have hcomma : ',' ∉ run := fun hmem => absurd (hrun _ hmem) (by decide)
  have hfirst : ∀ piece, parse? (run ++ piece) = parse? piece := fun piece =>
    parse?_of_words (Token.words_blanks_append hrun piece)
  by_cases hmem : ',' ∈ cs
  · obtain ⟨piece, rest, rfl, hpiece⟩ := List.eq_append_cons_of_mem hmem
    rw [← List.append_assoc, List.splitOn_append_cons_self_of_not_mem (by simp [hcomma, hpiece]),
      List.splitOn_append_cons_self_of_not_mem hpiece, List.map_cons, List.map_cons, hfirst]
  · rw [List.splitOn_eq_singleton (by simp [hcomma, hmem]), List.splitOn_eq_singleton hmem,
      List.map_singleton, List.map_singleton, hfirst]

/-- Blanks behind a list change no piece of it. -/
theorem map_parse?_append_blanks (hrun : ∀ c ∈ run, isBlank c = true) (cs : List Char) :
    ((cs ++ run).splitOn ',').map parse? = (cs.splitOn ',').map parse? := by
  have hcomma : ',' ∉ run := fun hmem => absurd (hrun _ hmem) (by decide)
  by_cases hmem : ',' ∈ cs
  · obtain ⟨piece, rest, hcs, hpiece⟩ := List.eq_append_cons_of_mem hmem
    have hshorter : rest.length < cs.length := by
      rw [hcs, List.length_append, List.length_cons]
      omega
    rw [hcs, List.append_assoc, List.cons_append,
      List.splitOn_append_cons_self_of_not_mem hpiece,
      List.splitOn_append_cons_self_of_not_mem hpiece, List.map_cons, List.map_cons,
      map_parse?_append_blanks hrun rest]
  · have hlast : parse? (cs ++ run) = parse? cs := by
      by_cases hne : run = []
      · rw [hne, List.append_nil]
      · have hwords := Token.words_append_blanks hrun hne cs []
        rw [List.append_nil, Token.words_nil, List.append_nil] at hwords
        exact parse?_of_words hwords
    rw [List.splitOn_eq_singleton (by simp [hcomma, hmem]), List.splitOn_eq_singleton hmem,
      List.map_singleton, List.map_singleton, hlast]
termination_by cs.length

/-- What is trimmed off a text is blank. -/
theorem exists_blanks_of_trim (cs : List Char) :
    ∃ lead tail, cs = lead ++ (trim cs ++ tail) ∧ (∀ c ∈ lead, isBlank c = true)
      ∧ ∀ c ∈ tail, isBlank c = true := by
  refine ⟨cs.takeWhile isBlank, ((trimStart cs).reverse.takeWhile isBlank).reverse, ?_, ?_, ?_⟩
  · have hend : trim cs ++ ((trimStart cs).reverse.takeWhile isBlank).reverse = trimStart cs := by
      unfold trim trimEnd
      rw [← List.reverse_append, List.takeWhile_append_dropWhile, List.reverse_reverse]
    rw [hend]
    exact List.takeWhile_append_dropWhile.symm
  · exact fun _ hc => List.mem_takeWhile_imp hc
  · exact fun c hc => List.mem_takeWhile_imp (List.mem_reverse.mp hc)

/-- **The blanks around a list of citations do not matter.** -/
theorem parseList_trim (cs : List Char) :
    parseList (String.ofList (trim cs)) = parseList (String.ofList cs) := by
  obtain ⟨lead, tail, hcs, hlead, htail⟩ := exists_blanks_of_trim cs
  have hblank : cs.all isBlank = (trim cs).all isBlank := by
    conv_lhs => rw [hcs]
    rw [List.all_append, List.all_append, List.all_eq_true.mpr hlead, List.all_eq_true.mpr htail,
      Bool.true_and, Bool.and_true]
  have hpieces : (cs.splitOn ',').map parse? = ((trim cs).splitOn ',').map parse? := by
    conv_lhs => rw [hcs]
    rw [map_parse?_blanks_append hlead, map_parse?_append_blanks htail]
  unfold parseList
  rw [String.toList_ofList, String.toList_ofList, hblank, hpieces]

/-- **A citation is read from its own piece**: where a piece that can be read stands
in another list, it is read as the same. -/
theorem parseList_getElem?_of_piece {cs cs' : List Char} {i : Nat} {cited : Citation}
    (h : (parseList (String.ofList cs))[i]? = some (some cited))
    (hsame : (cs'.splitOn ',')[i]? = (cs.splitOn ',')[i]?) :
    (parseList (String.ofList cs'))[i]? = some (some cited) := by
  unfold parseList at h ⊢
  rw [String.toList_ofList] at h ⊢
  split at h
  · exact absurd h (by simp)
  · rw [List.getElem?_map, Option.map_eq_some_iff] at h
    obtain ⟨piece, hpiece, hcited⟩ := h
    rw [← hsame] at hpiece
    split
    · next hblank =>
        -- The only piece of a blank list is blank, and cites nothing.
        rw [List.all_eq_true] at hblank
        have hcomma : ',' ∉ cs' := fun hmem => absurd (hblank _ hmem) (by decide)
        rw [List.splitOn_eq_singleton hcomma] at hpiece
        obtain rfl := List.mem_singleton.mp (List.mem_of_getElem? hpiece)
        have hwords := Token.words_blanks_append hblank []
        rw [List.append_nil] at hwords
        rw [parse?_of_words hwords, parse?, Token.scan] at hcited
        exact absurd hcited (by simp [ofTokens?])
    · rw [List.getElem?_map, hpiece, Option.map_some, hcited]

end Citation

end NaturalDeduction
