/-
  NaturalDeduction.Proofs.Rejections
  ──────────────────────────────────
  **WHAT A REJECTION POINTS AT.**

  Spans are measured three times: a complaint in its formula, the parts of a
  line in the line, and a failure in the whole text.  Each move from one to the
  next keeps what a span marks (`Span.Marks.forward`), so a failure of the
  check points into the line that it is about.  Main statements:

    • `ProofState.inRange_of_place` — no subproof is looked up that is not on
      record,
    • `ProofState.blames_of_step` — what is blamed when a line is refused,
    • `checkSource_points` — everything that is looked up by its place is there,
      and every failure points at the right bytes of the right line.
-/
import NaturalDeduction.Proofs.Complaints
import NaturalDeduction.Proofs.History
import NaturalDeduction.Proofs.LineSpans
import NaturalDeduction.Proofs.Nesting

namespace NaturalDeduction

/-! ## §1. Subproofs that are looked up by their numbers. -/

/-- The subproofs that are open, and those that lines opened, are on record. -/
structure Scopes.InRange (s : Scopes) : Prop where
  path : ∀ id ∈ s.path, id < s.subproofs.length
  openedBy : ∀ entry ∈ s.openedBy, entry.2 < s.subproofs.length

/-- No path of a tree names a subproof that is not on record. -/
theorem Scopes.Nested.inRange {s : Scopes} (hs : s.Nested) : s.InRange := ⟨hs.path.lt, hs.openedBy⟩

namespace ProofState

variable {options : CheckOptions} {s : ProofState} {line : ProofLine}

/-- The rule of a line looks up only subproofs that are on record, whatever the
lines before it. -/
theorem inRange_of_place {lines : List ProofLine} {placed : Placed}
    (hrun : run options lines = .ok s) (hplace : s.place options line = .ok placed) :
    placed.state.scopes.InRange := by
  obtain ⟨h, hh, -⟩ := exists_history_of_runFrom lines .start hrun
  obtain ⟨-, -, -, henter, -⟩ := place_eq_ok hplace
  exact (hh.walk.nested.of_enter henter).inRange

end ProofState

/-! ## §2. What is blamed in a line. -/

/-- A cause is blamed on bytes of a text: for a formula that cannot be read they
are the token that was found, or no bytes if the formula ended too early, and
for a rule that is not known they are the text of the rule. -/
structure FailureCause.Blames (cause : FailureCause) (span : Span) (ruleText : String)
    (text : List Char) : Prop where
  fits : span.Fits text
  unreadable : ∀ e, cause = .unreadable e → e.PointsAt span text
  unknownRule : cause = .unknownRule → span.Marks ruleText.toList text

namespace FailureCause

variable {cause : FailureCause} {span outer : Span} {ruleText : String} {mid text : List Char}

/-- What is blamed in a part of a text is blamed in the whole. -/
theorem Blames.forward (h : cause.Blames span ruleText mid) (houter : outer.Marks mid text) :
    cause.Blames (span.forward outer.start) ruleText text := by
  obtain ⟨part, hpart⟩ := h.fits
  refine ⟨⟨part, houter.forward hpart⟩, ?_, ?_⟩
  · intro e he
    exact (h.unreadable e he).forward houter
  · intro hcause
    exact houter.forward (h.unknownRule hcause)

/-- Any other cause is blamed on bytes of the text. -/
theorem blames_of_fits (hread : ∀ e, cause ≠ .unreadable e) (hrule : cause ≠ .unknownRule)
    (h : span.Fits text) : cause.Blames span ruleText text :=
  ⟨h, fun e he => absurd he (hread e), fun hcause => absurd hcause hrule⟩

end FailureCause

namespace ProofState

variable {options : CheckOptions} {s : ProofState} {line : ProofLine} {cause : FailureCause}
  {span : Span} {raw : List Char}

/-- A complaint about the formula of a line points into the formula. -/
theorem pointsAt_of_readFormula {e : Unexpected} (h : readFormula options line = .error e) :
    e.PointsAt e.span line.formulaText.toList := by
  unfold readFormula at h
  split at h
  · exact Unexpected.pointsAt_of_parse (.inr h)
  · exact Unexpected.pointsAt_of_parse (.inl h)

theorem blames_of_place (hline : line.MarkedIn raw)
    (h : s.place options line = .error (cause, span)) :
    cause.Blames span line.ruleText raw := by
  have hwhole : line.spans.line.Fits raw := ⟨raw, hline.whole⟩
  rcases place_eq_error h with
    ⟨horder, rfl⟩ | ⟨e, he, rfl, rfl⟩ | ⟨-, rfl, rfl⟩ | ⟨fault, -, rfl, rfl⟩
  · rcases cause_of_checkOrder horder with rfl | ⟨previous, rfl⟩
    · exact FailureCause.blames_of_fits (by simp) (by simp) hwhole
    · exact FailureCause.blames_of_fits (by simp) (by simp) hwhole
  · -- The complaint was measured in the formula and is moved to the line.
    have hpoints := (pointsAt_of_readFormula he).forward hline.formula
    refine ⟨⟨_, hpoints.1⟩, ?_, fun hcause => absurd hcause (by simp)⟩
    intro e' he'
    rw [← FailureCause.unreadable.inj he']
    exact hpoints
  · exact ⟨⟨_, hline.rule⟩, fun e he => absurd he (by simp), fun _ => hline.rule⟩
  · exact FailureCause.blames_of_fits (by simp) (by simp) hwhole

/-- **What is blamed when a line is refused** stands in the line. -/
theorem blames_of_step (hline : line.MarkedIn raw)
    (h : s.step options line = .error (cause, span)) : cause.Blames span line.ruleText raw := by
  rcases step_eq_error h with hplace | ⟨placed, v, -, -, rfl, rfl⟩
  · exact blames_of_place hline hplace
  · refine FailureCause.blames_of_fits (by simp) (by simp) ?_
    split
    · exact ⟨_, hline.citations⟩
    · exact ⟨_, hline.formula⟩

/-! ## §3. Which line is at fault. -/

/-- A run that fails has refused the line that its failure counts. -/
theorem refused_of_runFrom {lines : List ProofLine} {index : Nat} {failure : CheckFailure}
    (h : runFrom options s index lines = .error failure) :
    ∃ (i : Nat) (line : ProofLine) (s' : ProofState), lines[i]? = some line
      ∧ failure.index = index + i ∧ failure.number = line.number
      ∧ failure.ruleText = line.ruleText
      ∧ s'.step options line = .error (failure.cause, failure.span) := by
  obtain ⟨before, line, after, s', cause, span, rfl, -, hrefused, rfl⟩ :=
    runFrom_eq_error_iff.mp h
  exact ⟨before.length, line, s', by simp, rfl, rfl, rfl, hrefused⟩

end ProofState

theorem refused_of_check {options : CheckOptions} {lines : List ProofLine}
    {failure : CheckFailure} (h : check options lines = .error failure) :
    ∃ (line : ProofLine) (s : ProofState), lines[failure.index]? = some line
      ∧ failure.number = line.number ∧ failure.ruleText = line.ruleText
      ∧ s.step options line = .error (failure.cause, failure.span) := by
  unfold check at h
  split at h
  · next failure' hrun =>
      rw [Except.error.inj h] at hrun
      obtain ⟨i, line, s, hi, hindex, hrefused⟩ := ProofState.refused_of_runFrom hrun
      rw [Nat.zero_add] at hindex
      exact ⟨line, s, hindex ▸ hi, hrefused⟩
  · exact absurd h (by simp)

/-- The lines of a text are read in order, each at its own place. -/
theorem readLines_getElem? {raws : List TextLine} {lines : List LocatedLine}
    (h : readLines raws = .ok lines) {i : Nat} {located : LocatedLine}
    (hi : lines[i]? = some located) :
    ∃ raw, raws[i]? = some raw ∧ located.offset = raw.offset
      ∧ ProofLine.parse raw.text = .ok located.line := by
  induction raws generalizing lines i with
  | nil =>
      rw [← Except.ok.inj h] at hi
      exact absurd hi (by simp)
  | cons raw rest ih =>
      rw [readLines] at h
      split at h
      · exact absurd h (by simp)
      · next line hparse =>
          split at h
          · exact absurd h (by simp)
          · next more hrest =>
              rw [← Except.ok.inj h] at hi
              cases i with
              | zero =>
                  rw [← Option.some.inj hi]
                  exact ⟨raw, rfl, rfl, hparse⟩
              | succ i => exact ih hrest hi

/-- The line that is reported as malformed is the first that cannot be cut. -/
theorem malformed_of_readLines {raws : List TextLine} {failure : SourceFailure}
    (h : readLines raws = .error failure) :
    ∃ before raw after fault, raws = before ++ raw :: after
      ∧ (∀ l ∈ before, ∃ line, ProofLine.parse l.text = .ok line)
      ∧ ProofLine.parse raw.text = .error fault ∧ failure = .malformed raw.offset fault := by
  induction raws with
  | nil => exact absurd h (by simp [readLines])
  | cons raw rest ih =>
      rw [readLines] at h
      split at h
      · next fault hfault =>
          exact ⟨[], raw, rest, fault, rfl, by simp, hfault, (Except.error.inj h).symm⟩
      · next line hparse =>
          split at h
          · next failure' hrest =>
              rw [Except.error.inj h] at hrest
              obtain ⟨before, raw', after, fault, rfl, hbefore, hfault⟩ := ih hrest
              refine ⟨raw :: before, raw', after, fault, rfl, ?_, hfault⟩
              intro l hl
              rcases List.mem_cons.mp hl with rfl | hold
              · exact ⟨line, hparse⟩
              · exact hbefore l hold
          · exact absurd h (by simp)

theorem standsIn_of_mem_contentLines {text : String} {raw : TextLine}
    (h : raw ∈ contentLines text) : raw.StandsIn text.toList ∧ raw.isBlank = false := by
  obtain ⟨hmem, hblank⟩ := List.mem_filter.mp h
  exact ⟨TextLine.standsIn_of_mem hmem, by simpa using hblank⟩

/-! ## §4. Whole texts. -/

/-- **What a check looks up by its place is there.** -/
structure LooksUpInRange (options : CheckOptions) (text : String) : Prop where
  /-- Every token is cut from its text between characters. -/
  tokens : ∀ part : String, ∀ t ∈ Token.tokenize part, t.span.Marks t.text.toList part.toList
  /-- So are the parts of every line. -/
  parts : ∀ raw line, ProofLine.parse raw = .ok line → line.MarkedIn raw.toList
  /-- A line in its place finds every subproof that it looks up. -/
  subproofs : ∀ before line after s placed, proofLines text = before ++ line :: after →
    ProofState.run options before = .ok s → s.place options line = .ok placed →
    placed.state.scopes.InRange
  /-- The line that a failure counts is a line of the proof. -/
  lines : ∀ located failure, readProof text = .ok located →
    check options (located.map LocatedLine.line) = .error failure →
    failure.index < located.length

theorem looksUpInRange (options : CheckOptions) (text : String) : LooksUpInRange options text where
  tokens _ _ ht := (Token.marks_of_mem_tokenize ht).1
  parts _ _ hparse := ProofLine.markedIn_of_parse hparse
  subproofs _ _ _ _ _ _ hrun hplace := ProofState.inRange_of_place hrun hplace
  lines located failure _ hcheck := by
    obtain ⟨line, s, hline, -⟩ := refused_of_check hcheck
    have hbound := (List.getElem?_eq_some_iff.mp hline).1
    rwa [List.length_map] at hbound

namespace SourceFailure

/-- **A failure points into one line of a text**, which is not blank: its offset
is where the line starts, and its span is a span of whole characters in that
line. -/
structure PointsInto (failure : SourceFailure) (raw : TextLine) (text : List Char) : Prop where
  stands : raw.StandsIn text
  notBlank : raw.isBlank = false
  offset : failure.offset = raw.offset
  within : raw.span.start ≤ failure.span.start ∧ failure.span.stop ≤ raw.span.stop
  ordered : failure.span.start ≤ failure.span.stop
  boundaries : IsBoundary text failure.span.start ∧ IsBoundary text failure.span.stop

/-- **The line that a failure is about.**  A malformed line is the first one
that cannot be cut into its parts; a refused line is the one that the failure
counts, and its number, its rule and what is blamed are those of that line. -/
def IsAbout (failure : SourceFailure) (raw : TextLine) (text : String) : Prop :=
  match failure with
  | malformed _ fault => ∃ before after, contentLines text = before ++ raw :: after
      ∧ (∀ l ∈ before, ∃ line, ProofLine.parse l.text = .ok line)
      ∧ ProofLine.parse raw.text = .error fault
  | rejected offset failure => (contentLines text)[failure.index]? = some raw
      ∧ (∃ line, ProofLine.parse raw.text = .ok line ∧ failure.number = line.number
        ∧ failure.ruleText = line.ruleText)
      ∧ failure.cause.Blames (failure.span.forward offset) failure.ruleText text.toList

/-- A span that fits a line, moved to where the line is. -/
theorem pointsInto_of_fits {failure : SourceFailure} {raw : TextLine} {text : String} {s : Span}
    (hmem : raw ∈ contentLines text) (hfits : s.Fits raw.chars)
    (hoffset : failure.offset = raw.offset) (hspan : failure.span = s.forward raw.offset) :
    failure.PointsInto raw text.toList := by
  obtain ⟨hstands, hblank⟩ := standsIn_of_mem_contentLines hmem
  obtain ⟨part, hpart⟩ := hfits
  have hmarks : failure.span.Marks part text.toList := by
    rw [hspan]
    exact hstands.marks.forward hpart
  have hstop := hpart.stop_le
  refine ⟨hstands, hblank, hoffset, ?_, hmarks.le, hmarks.isBoundary_start, hmarks.isBoundary_stop⟩
  rw [hspan]
  show raw.offset ≤ s.start + raw.offset
    ∧ s.stop + raw.offset ≤ raw.offset + byteLength raw.chars
  omega

end SourceFailure

/-- A text with a malformed line. -/
theorem points_of_readProof {text : String} {failure : SourceFailure}
    (h : readProof text = .error failure) :
    ∃ raw, failure.PointsInto raw text.toList ∧ failure.IsAbout raw text := by
  obtain ⟨before, raw, after, fault, hlines, hbefore, hfault, rfl⟩ := malformed_of_readLines h
  have hmem : raw ∈ contentLines text := by
    rw [hlines]
    exact List.mem_append_right _ List.mem_cons_self
  have hfits := ProofLine.fits_of_parse hfault
  rw [TextLine.toList_text] at hfits
  exact ⟨raw, SourceFailure.pointsInto_of_fits hmem hfits rfl rfl, before, after, hlines, hbefore,
    hfault⟩

/-- A text with a line that was refused. -/
theorem points_of_check {options : CheckOptions} {text : String} {located : List LocatedLine}
    {failure : CheckFailure} (hread : readProof text = .ok located)
    (h : check options (located.map LocatedLine.line) = .error failure) :
    ∃ raw, (locate located failure).PointsInto raw text.toList
      ∧ (locate located failure).IsAbout raw text := by
  obtain ⟨line, s, hline, hnumber, hrule, hstep⟩ := refused_of_check h
  rw [List.getElem?_map, Option.map_eq_some_iff] at hline
  obtain ⟨l, hl, rfl⟩ := hline
  obtain ⟨raw, hraw, hoffset, hparse⟩ := readLines_getElem? hread hl
  have hmem : raw ∈ contentLines text := List.mem_of_getElem? hraw
  have hplace : locate located failure = .rejected raw.offset failure := by
    unfold locate
    rw [hl, Option.map_some, Option.getD_some, hoffset]
  have hmarked := ProofLine.markedIn_of_parse hparse
  rw [TextLine.toList_text] at hmarked
  have hblames : failure.cause.Blames failure.span failure.ruleText raw.chars := by
    rw [hrule]
    exact ProofState.blames_of_step hmarked hstep
  have hmarks := (standsIn_of_mem_contentLines hmem).1.marks
  rw [hplace]
  refine ⟨raw, SourceFailure.pointsInto_of_fits hmem hblames.fits rfl rfl, hraw, ?_, ?_⟩
  · exact ⟨l.line, hparse, hnumber, hrule⟩
  · exact hblames.forward hmarks

/-- **Every rejection points at the right bytes, and nothing on the way is
looked up out of range.** -/
theorem checkSource_points (options : CheckOptions) (text : String) :
    LooksUpInRange options text
      ∧ ∀ failure, checkSource options text = .error failure →
        ∃ raw, failure.PointsInto raw text.toList ∧ failure.IsAbout raw text := by
  refine ⟨looksUpInRange options text, ?_⟩
  intro failure h
  unfold checkSource at h
  split at h
  · next failure' hread =>
      rw [Except.error.inj h] at hread
      exact points_of_readProof hread
  · next located hread =>
      split at h
      · next failure' hcheck =>
          rw [← Except.error.inj h]
          exact points_of_check hread hcheck
      · exact absurd h (by simp)

/-- A name of two bytes, a line that ends with a carriage return, a blank line,
and then a parenthesis where a formula has to start. -/
theorem checkSource_points_unreadable :
    ∃ raw, (SourceFailure.rejected 20 ⟨1, 2, "&-i", .unreadable ⟨.primary, some ")", ⟨5, 6⟩⟩,
          ⟨8, 9⟩⟩).PointsInto raw "1. é -premiss :\r\n \n2. é & ) &-i : 1\n".toList
      ∧ (SourceFailure.rejected 20 ⟨1, 2, "&-i", .unreadable ⟨.primary, some ")", ⟨5, 6⟩⟩,
          ⟨8, 9⟩⟩).IsAbout raw "1. é -premiss :\r\n \n2. é & ) &-i : 1\n" :=
  (checkSource_points {} "1. é -premiss :\r\n \n2. é & ) &-i : 1\n").2 _ (by decide +kernel)

end NaturalDeduction
