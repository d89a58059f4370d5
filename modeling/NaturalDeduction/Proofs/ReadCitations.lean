/-
  NaturalDeduction.Proofs.ReadCitations
  ─────────────────────────────────────
  **WHICH CITATIONS OF A LINE COUNT.**

  The rule of a line looks at its first citations, as many as it has premisses, and
  at no others.  Those it looks at lead to lines that were accepted before; what
  else a line cites is passed over, wherever it leads.  Main statements:

    • `History.exists_earlier` — a citation that is looked at leads to an
      earlier line,
    • `check_of_sameReads` — with other citations where none is looked at, a
      proof is accepted all the same,
    • `checkSource_of_sameReads` — and so is a text with anything else in the pieces
      of its citations that are not looked at.
-/
import NaturalDeduction.Proofs.BehindColon
import NaturalDeduction.Proofs.Hypotheses
import NaturalDeduction.Proofs.LookUps
import NaturalDeduction.Proofs.Strictness

namespace NaturalDeduction

/-! ## §1. Citations that are looked at lead to earlier lines. -/

/-- How many citations of a line are looked at: none if there is no such
rule. -/
def ProofLine.arity (line : ProofLine) : Nat :=
  match Rule.ofName? line.ruleText with
  | some rule => rule.arity
  | none => 0

namespace ProofState

variable {options : CheckOptions}

theorem Accepted.arity_eq (t : Accepted options) : t.line.arity = t.placed.rule.arity := by
  unfold ProofLine.arity
  rw [(place_eq_ok t.place_eq).2.2.1]

/-- **A citation that is looked at leads to an earlier line of the history**,
the one with the number that the citation starts with. -/
theorem History.exists_earlier {h : List (Accepted options)} {s : ProofState}
    (hh : History options h s) {j : Nat} {t : Accepted options} (hj : h[j]? = some t) {index : Nat}
    (hindex : index < t.line.arity) :
    ∃ cited i u, t.line.citations[index]? = some (some cited) ∧ i < j ∧ h[i]? = some u
      ∧ u.line.number = cited.leading := by
  rw [t.arity_eq] at hindex
  rcases Rule.leads_of_licenses t.licenses index hindex with ⟨f, hf⟩ | ⟨b, hb⟩
  · obtain ⟨cited, i, u, hcited, hij, hu, hnumber, -⟩ := hh.exists_of_cites hj hf
    exact ⟨cited, i, u, hcited, hij, hu, hnumber⟩
  · obtain ⟨box, -, -, hcited⟩ := hh.exists_box hj hb
    exact ⟨_, _, box.first, hcited, box.start_lt, box.first_eq, rfl⟩

end ProofState

/-! ## §2. Citations that are not looked at do not matter. -/

/-- Two lines that differ only in what their rule does not look at, and in where
their parts stand. -/
structure ProofLine.SameReads (line line' : ProofLine) : Prop where
  number : line'.number = line.number
  depth : line'.depth = line.depth
  flag : line'.flag = line.flag
  formulaText : line'.formulaText = line.formulaText
  ruleText : line'.ruleText = line.ruleText
  citations : ∀ i < line.arity, line'.citations[i]? = line.citations[i]?

namespace ProofState

variable {options : CheckOptions} {s s' : ProofState} {line line' : ProofLine}

/-- A line that differs only so is placed in the same way. -/
theorem place_of_sameReads (hsame : line.SameReads line') {placed : Placed}
    (h : s.place options line = .ok placed) : s.place options line' = .ok placed := by
  have hentry : line'.entry = line.entry := by
    unfold ProofLine.entry
    rw [hsame.number, hsame.depth, hsame.flag, hsame.ruleText]
  obtain ⟨horder, hread, hrule, henter, hstate⟩ := place_eq_ok h
  have horder' : checkOrder options s line' = .ok () := by
    unfold checkOrder at horder ⊢
    rwa [hsame.number]
  have hread' : readFormula options line' = .ok placed.formula := by
    unfold readFormula at hread ⊢
    rwa [hsame.formulaText]
  unfold place
  rw [horder', hread', hsame.ruleText, hrule, hentry, henter]
  exact congrArg (fun state => Except.ok (Placed.mk placed.rule placed.formula state)) hstate.symm

/-- **A line that is accepted is accepted with other citations where its rule
looks at none.** -/
theorem step_of_sameReads (hsame : line.SameReads line') (h : s.step options line = .ok s') :
    s.step options line' = .ok s' := by
  obtain ⟨t, rfl, rfl, rfl⟩ := exists_accepted_of_step h
  have hcited : ∀ i < t.placed.rule.arity,
      (t.placed.state.context line' t.placed.formula).citedAt i = t.context.citedAt i := by
    intro i hi
    rw [← t.arity_eq] at hi
    rw [Accepted.context, citedAt_context, citedAt_context, hsame.citations i hi]
  have hresult : (t.placed.state.context line' t.placed.formula).result = t.context.result := rfl
  have hcheck : t.placed.rule.check (t.placed.state.context line' t.placed.formula) = .ok () :=
    Rule.check_of_licenses ((Rule.licenses_congr hsame.depth hresult hcited).mpr t.licenses)
  unfold step
  rw [place_of_sameReads hsame t.place_eq]
  dsimp only
  rw [hcheck, hsame.number]
  rfl

theorem runFrom_of_sameReads {lines lines' : List ProofLine}
    (hsame : List.Forall₂ ProofLine.SameReads lines lines') {index : Nat}
    (h : runFrom options s index lines = .ok s') : runFrom options s index lines' = .ok s' := by
  induction hsame generalizing s index with
  | nil => exact h
  | cons hline _ ih =>
      obtain ⟨t, hstep, hrest⟩ := runFrom_cons_eq_ok_iff.mp h
      exact runFrom_cons_eq_ok_iff.mpr ⟨t, step_of_sameReads hline hstep, ih hrest⟩

end ProofState

/-- A proof that is accepted is accepted with other citations where its rules
look at none, and what is verified is the same. -/
theorem check_of_sameReads {options : CheckOptions} {lines lines' : List ProofLine}
    (hsame : List.Forall₂ ProofLine.SameReads lines lines') {proof : VerifiedProof}
    (h : check options lines = .ok proof) : check options lines' = .ok proof := by
  obtain ⟨s, hrun, rfl⟩ := check_eq_ok h
  exact check_of_run (ProofState.runFrom_of_sameReads hsame hrun)

/-! ## §3. Pieces of text that are not looked at. -/

/-- **Two lines of text differ only in what their rule does not look at**: they are
the same up to the first colon, and behind it in the pieces between commas that the
rule looks at. -/
def TextLine.SameReads (l l' : TextLine) : Prop :=
  ∃ front after after', l.chars = front ++ ':' :: after ∧ l'.chars = front ++ ':' :: after'
    ∧ ':' ∉ front ∧ ∀ line, ProofLine.parse l.text = .ok line → ∀ i < line.arity,
      (after'.splitOn ',')[i]? = (after.splitOn ',')[i]?

/-- Such lines are read as lines that differ only so. -/
theorem TextLine.SameReads.exists_parse {l l' : TextLine} (h : l.SameReads l') {line : ProofLine}
    (hparse : ProofLine.parse l.text = .ok line)
    (hcited : ∀ i < line.arity, ∃ cited, line.citations[i]? = some (some cited)) :
    ∃ line', ProofLine.parse l'.text = .ok line' ∧ line.SameReads line' := by
  obtain ⟨front, after, after', hchars, hchars', hfront, hpieces⟩ := h
  have hsame := hpieces line hparse
  have htext : l.text = String.ofList (front ++ ':' :: after) := congrArg String.ofList hchars
  have htext' : l'.text = String.ofList (front ++ ':' :: after') := congrArg String.ofList hchars'
  rw [htext] at hparse
  obtain ⟨hreads, hcitations⟩ := ProofLine.readsFront_of_parse hfront hparse
  obtain ⟨spans, hparse'⟩ := ProofLine.exists_parse_of_readsFront hfront hreads after'
  rw [htext']
  refine ⟨_, hparse', rfl, rfl, rfl, rfl, rfl, fun i hi => ?_⟩
  -- The pieces were trimmed as one text, which changes none of them.
  obtain ⟨cited, hread⟩ := hcited i hi
  rw [hread]
  unfold ProofLine.citations at hread ⊢
  rw [hcitations, Citation.parseList_trim] at hread
  rw [Citation.parseList_trim]
  exact Citation.parseList_getElem?_of_piece hread (hsame i hi)

/-- The lines of a text that differ only so are read as such lines. -/
theorem exists_readLines_of_sameReads {raws raws' : List TextLine}
    (h : List.Forall₂ TextLine.SameReads raws raws') {located : List LocatedLine}
    (hread : readLines raws = .ok located)
    (hcited : ∀ l ∈ located, ∀ i < l.line.arity, ∃ cited,
      l.line.citations[i]? = some (some cited)) :
    ∃ located', readLines raws' = .ok located'
      ∧ List.Forall₂ ProofLine.SameReads (located.map LocatedLine.line)
        (located'.map LocatedLine.line) := by
  induction h generalizing located with
  | nil =>
      rw [← Except.ok.inj hread]
      exact ⟨[], rfl, .nil⟩
  | @cons raw raw' rest rest' hfirst hrest ih =>
      rw [readLines] at hread
      split at hread
      · exact absurd hread (by simp)
      · next line hparse =>
          split at hread
          · exact absurd hread (by simp)
          · next more hmore =>
              obtain rfl := Except.ok.inj hread
              obtain ⟨line', hparse', hline⟩ :=
                hfirst.exists_parse hparse (hcited _ List.mem_cons_self)
              obtain ⟨more', hmore', hlines⟩ :=
                ih hmore fun l hl => hcited l (List.mem_cons_of_mem _ hl)
              refine ⟨⟨raw'.offset, line'⟩ :: more', ?_, .cons hline hlines⟩
              rw [readLines, hparse', hmore']

/-- What the rule of an accepted line looks at can be read. -/
theorem exists_citation {options : CheckOptions} {lines : List ProofLine} {proof : VerifiedProof}
    (h : check options lines = .ok proof) {line : ProofLine} (hline : line ∈ lines) {i : Nat}
    (hi : i < line.arity) : ∃ cited, line.citations[i]? = some (some cited) := by
  obtain ⟨s, hrun, -⟩ := check_eq_ok h
  obtain ⟨history, hh, rfl⟩ := ProofState.exists_history_of_runFrom _ .start hrun
  obtain ⟨t, ht, rfl⟩ := List.mem_map.mp hline
  obtain ⟨j, hj⟩ := List.mem_iff_getElem?.mp ht
  obtain ⟨cited, -, -, hcited, -⟩ := hh.exists_earlier hj hi
  exact ⟨cited, hcited⟩

/-- **A text that is accepted is accepted with anything else where its rules do not
look**, and what is verified is the same. -/
theorem checkSource_of_sameReads {options : CheckOptions} {text text' : String}
    (hsame : List.Forall₂ TextLine.SameReads (contentLines text) (contentLines text'))
    {proof : VerifiedProof} (h : checkSource options text = .ok proof) :
    checkSource options text' = .ok proof := by
  unfold checkSource at h
  split at h
  · exact absurd h (by simp)
  · next located hread =>
      split at h
      · exact absurd h (by simp)
      · next proof' hcheck =>
          obtain rfl := Except.ok.inj h
          obtain ⟨located', hread', hlines⟩ := exists_readLines_of_sameReads hsame hread
            fun l hl i hi => exists_citation hcheck (List.mem_map_of_mem hl) hi
          have hread'' : readProof text' = .ok located' := hread'
          unfold checkSource
          rw [hread'']
          dsimp only
          rw [check_of_sameReads hlines hcheck]

/-! ## §4. Strict order. -/

/-- **Under strict order, whatever a rule looks at has a smaller number.**  In an
accepted text every citation that the rule of a line looks at can be read, and
the line that it starts with has a smaller number than the citing line.  The
pieces at the other places are not looked at: every text whose lines are the same up
to the colon and in the pieces that are looked at is accepted with the same
result. -/
theorem cited_before_of_strict {options : CheckOptions} {text : String} {proof : VerifiedProof}
    (hstrict : options.strictOrder = true) (h : checkSource options text = .ok proof) :
    (∀ line ∈ proofLines text, ∀ i < line.arity, ∃ cited,
        line.citations[i]? = some (some cited) ∧ cited.leading < line.number)
      ∧ ∀ text', List.Forall₂ TextLine.SameReads (contentLines text) (contentLines text') →
          checkSource options text' = .ok proof := by
  refine ⟨?_, fun text' hsame => checkSource_of_sameReads hsame h⟩
  obtain ⟨history, s, hh, hrun, hlines, rfl⟩ := exists_history h
  intro line hline index hindex
  rw [← hlines] at hline
  obtain ⟨t, ht, rfl⟩ := List.mem_map.mp hline
  obtain ⟨j, hj⟩ := List.mem_iff_getElem?.mp ht
  obtain ⟨cited, i, u, hcited, hij, hu, hnumber⟩ := hh.exists_earlier hj hindex
  -- The numbers increase, so the earlier line has the smaller one.
  have hincrease : history.Pairwise fun u t => u.line.number < t.line.number := by
    have hchain := (ProofState.runFrom_eq_ok_iff.mp hrun).2.1 hstrict
    rw [List.isChain_iff_pairwise, ← hlines, List.map_map] at hchain
    exact List.pairwise_map.mp hchain
  obtain ⟨hi, rfl⟩ := List.getElem?_eq_some_iff.mp hu
  obtain ⟨hj', rfl⟩ := List.getElem?_eq_some_iff.mp hj
  refine ⟨cited, hcited, ?_⟩
  rw [← hnumber]
  exact List.pairwise_iff_getElem.mp hincrease i j hi hj' hij

/-- A premiss cites a line that comes later, and a weakening cites one that is
not there at all behind the one that it looks at.  The latter leads to a smaller
number, and with no citation for the one and what cannot be read behind the comma
of the other, the text is accepted just the same. -/
theorem cited_before_of_strict_weakening :
    checkSource {} "1. P -premiss : 2\n2. P v Q v-i1 : 1, 7"
        = .ok ⟨[(2, .disj (.atom "P" []) (.atom "Q" [])), (1, .atom "P" [])], [1, 2]⟩
      ∧ (∀ line ∈ proofLines "1. P -premiss : 2\n2. P v Q v-i1 : 1, 7", ∀ i < line.arity,
          ∃ cited, line.citations[i]? = some (some cited) ∧ cited.leading < line.number)
      ∧ checkSource {} "1. P -premiss :\n\n2. P v Q v-i1 : 1,?:"
        = .ok ⟨[(2, .disj (.atom "P" []) (.atom "Q" [])), (1, .atom "P" [])], [1, 2]⟩ := by
  have haccepted : checkSource {} "1. P -premiss : 2\n2. P v Q v-i1 : 1, 7"
      = .ok ⟨[(2, .disj (.atom "P" []) (.atom "Q" [])), (1, .atom "P" [])], [1, 2]⟩ := by
    decide +kernel
  obtain ⟨hbefore, hother⟩ := cited_before_of_strict rfl haccepted
  have hcontent : contentLines "1. P -premiss : 2\n2. P v Q v-i1 : 1, 7"
      = [⟨0, "1. P -premiss : 2".toList⟩, ⟨18, "2. P v Q v-i1 : 1, 7".toList⟩] := by
    decide +kernel
  have hcontent' : contentLines "1. P -premiss :\n\n2. P v Q v-i1 : 1,?:"
      = [⟨0, "1. P -premiss :".toList⟩, ⟨17, "2. P v Q v-i1 : 1,?:".toList⟩] := by
    decide +kernel
  have harity : (ProofLine.parse "1. P -premiss : 2").map ProofLine.arity = .ok 0
      ∧ (ProofLine.parse "2. P v Q v-i1 : 1, 7").map ProofLine.arity = .ok 1 := by
    decide +kernel
  refine ⟨haccepted, hbefore, hother _ ?_⟩
  rw [hcontent, hcontent']
  refine .cons ⟨"1. P -premiss ".toList, " 2".toList, [], rfl, rfl, by decide, ?_⟩
    (.cons ⟨"2. P v Q v-i1 ".toList, " 1, 7".toList, " 1,?:".toList, rfl, rfl, by decide, ?_⟩ .nil)
  · intro line hline i hi
    rw [show TextLine.text _ = "1. P -premiss : 2" from rfl] at hline
    rw [hline] at harity
    have hzero : line.arity = 0 := Except.ok.inj harity.1
    omega
  · intro line hline i hi
    rw [show TextLine.text _ = "2. P v Q v-i1 : 1, 7" from rfl] at hline
    rw [hline] at harity
    have hone : line.arity = 1 := Except.ok.inj harity.2
    obtain rfl : i = 0 := by omega
    decide

/-- **Not every citation leads to a smaller number, even under strict order**: a
premiss looks at none, so it may cite itself. -/
theorem not_cited_before : ¬ ∀ (options : CheckOptions) (text : String) (proof : VerifiedProof),
    options.strictOrder = true → checkSource options text = .ok proof →
      ∀ line ∈ proofLines text, ∀ cited, some cited ∈ line.citations →
        cited.leading < line.number := by
  intro hall
  have haccepted : checkSource {} "1. P -premiss : 1" = .ok ⟨[(1, .atom "P" [])], [1]⟩ := by
    decide +kernel
  have hbefore := hall {} _ _ rfl haccepted
  have hcites : ∃ line ∈ proofLines "1. P -premiss : 1",
      line.number = 1 ∧ some (Citation.line 1 none) ∈ line.citations := by decide +kernel
  obtain ⟨line, hline, hnumber, hcited⟩ := hcites
  have hlt : 1 < line.number := hbefore line hline _ hcited
  omega

end NaturalDeduction
