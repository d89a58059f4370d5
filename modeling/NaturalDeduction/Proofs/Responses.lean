/-
  NaturalDeduction.Proofs.Responses
  ─────────────────────────────────
  **NO TEXT CAN FORGE A LINE OF THE RESPONSE.**

  The response to a proof quotes the text of the proof in many ways.  What it
  quotes are tokens and formulas that are put together from names.  No token has
  a blank in it, and line ends are blanks; so whatever is quoted stays on its
  line.  Main statements:

    • `Token.not_blank_of_mem_scan` — there is no blank in a token,
    • `ProofLine.namedIn_of_parse` — whatever names a line brings in, they have no
      line end in them,
    • `CheckFailure.oneLine_of_check`, `SourceFailure.oneLine_title` — so messages
      and titles have none,
    • `Outcome.response_two_lines` — a response has two lines, a verdict and a
      reason.
-/
import NaturalDeduction.Proofs.Locality
import NaturalDeduction.Proofs.Provenance
import NaturalDeduction.Proofs.Rejections
import NaturalDeduction.Proofs.RoundTrip
import NaturalDeduction.Report.Basic

namespace NaturalDeduction

/-! ## §1. Texts on one line. -/

/-- There is no line feed and no carriage return in the text. -/
def OneLine (s : String) : Prop := ∀ c ∈ s.toList, c ≠ '\n' ∧ c ≠ '\r'

/-- Whether a given text is on one line is decided character by character. -/
theorem OneLine.ofList {cs : List Char} (h : (cs.all fun c => c != '\n' && c != '\r') = true) :
    OneLine (String.ofList cs) := by
  unfold OneLine
  rw [String.toList_ofList]
  simpa using h

@[simp] theorem oneLine_append {s t : String} : OneLine (s ++ t) ↔ OneLine s ∧ OneLine t := by
  simp only [OneLine, String.toList_append, List.forall_mem_append]

/-- Line ends are blanks, so a text without blanks is on one line. -/
theorem oneLine_of_no_blank {s : String} (h : ∀ c ∈ s.toList, isBlank c = false) :
    OneLine s := by
  intro c hc
  have hblank := h c hc
  constructor
  · rintro rfl
    exact absurd hblank (by decide)
  · rintro rfl
    exact absurd hblank (by decide)

theorem oneLine_repr (n : Nat) : OneLine n.repr := by
  refine oneLine_of_no_blank fun c hc => ?_
  rw [Nat.toList_repr] at hc
  exact isBlank_of_isDigit (Nat.isDigit_of_mem_toDigits (by decide) (by decide) hc)

/-- Texts on one line that are listed with a separator on one line. -/
theorem oneLine_intercalate {separator : String} (hs : OneLine separator) {texts : List String}
    (h : ∀ t ∈ texts, OneLine t) : OneLine (String.intercalate separator texts) := by
  induction texts with
  | nil =>
      rw [String.intercalate_nil]
      exact .ofList (by decide)
  | cons t ts ih =>
      obtain ⟨ht, hts⟩ := List.forall_mem_cons.mp h
      cases ts with
      | nil => rwa [String.intercalate_singleton]
      | cons u us =>
          rw [String.intercalate_cons_cons, oneLine_append, oneLine_append]
          exact ⟨⟨ht, hs⟩, ih hts⟩

/-! ## §2. Tokens and the names they make. -/

namespace Token

theorem not_blank_of_isName {n : Name} (h : isName n = true) :
    ∀ c ∈ n.toList, isBlank c = false := by
  intro c hc
  rw [Bool.eq_false_iff]
  intro hblank
  exact not_mem_of_isName h (isNameRest_of_isBlank hblank) hc

theorem not_blank_of_isTermText {n : Name} (h : isTermText n = true) :
    ∀ c ∈ n.toList, isBlank c = false := by
  rw [isTermText, Bool.or_eq_true] at h
  rcases h with hname | hnumeral
  · exact not_blank_of_isName hname
  · intro c hc
    simp only [isNumeral, Bool.and_eq_true, List.all_eq_true] at hnumeral
    exact isBlank_of_isDigit (hnumeral.2 c hc)

/-- **No recogniser takes a blank.** -/
theorem Recognised.not_blank {kind : Kind} {lexeme rest : List Char}
    (h : Recognised kind lexeme rest) : ∀ c ∈ lexeme, isBlank c = false := by
  cases h with
  | turnstile =>
      intro c hc
      rcases List.mem_pair.mp hc with rfl | rfl
      · decide
      · decide
  | ruleName hname hbreaks =>
      have hnames : (ruleNames.all fun name => name.all fun c => !isBlank c) = true := by decide
      simp only [List.all_eq_true, Bool.not_eq_true'] at hnames
      exact hnames _ hname
  | dashedWord hword hbreaks =>
      have hchars := not_blank_of_isName hword
      rw [String.toList_ofList] at hchars
      exact List.forall_mem_cons.mpr ⟨by decide, hchars⟩
  | digits hdigits hrest => exact fun c hc => isBlank_of_isDigit (hdigits c hc)
  | identifier hword hbreaks =>
      have hchars := not_blank_of_isName hword
      rwa [String.toList_ofList] at hchars
  | sign hsign hturnstile hdash =>
      intro c hc
      rw [List.mem_singleton.mp hc]
      exact (class_of_sign? hsign).1

/-- **There is no blank in a token**, and so no line end. -/
theorem not_blank_of_mem_scan {t : Token} {cs : List Char} (h : t ∈ scan 0 cs) :
    ∀ c ∈ t.text.toList, isBlank c = false := by
  obtain ⟨front, after, -, -, hlexeme⟩ := exists_lexeme?_of_mem_scan h [] rfl
  exact (recognised_of_lexeme? hlexeme).not_blank

theorem oneLine_of_mem_scan {t : Token} {cs : List Char} (h : t ∈ scan 0 cs) : OneLine t.text :=
  oneLine_of_no_blank (not_blank_of_mem_scan h)

end Token

/-! ## §3. Formulas. -/

namespace Formula

/-- The names of a formula that can be written down are on one line. -/
theorem WellFormed.namedIn {f : Formula} (h : f.WellFormed) : f.NamedIn {n | OneLine n} := by
  induction f with
  | falsity => trivial
  | atom predicate terms =>
      refine ⟨?_, fun t ht => oneLine_of_no_blank (Token.not_blank_of_isTermText (h.2.2 t ht))⟩
      rcases h.atom_cases with ⟨left, right, rfl, -⟩ | ⟨-, hname⟩
      · show OneLine identityName
        exact .ofList (by decide)
      · exact oneLine_of_no_blank (Token.not_blank_of_isName hname)
  | neg inner ih => exact ih h
  | join op left right ihl ihr => exact ⟨ihl h.1, ihr h.2⟩
  | bind q var body ih => exact ⟨oneLine_of_no_blank (Token.not_blank_of_isName h.1), ih h.2⟩

theorem oneLine_renderAtom {predicate : Name} {terms : List Name} (hp : OneLine predicate)
    (hterms : ∀ t ∈ terms, OneLine t) : OneLine (renderAtom predicate terms) := by
  unfold renderAtom
  split
  · exact hp
  · next left right =>
      have hleft : OneLine left := hterms left (by simp)
      have hright : OneLine right := hterms right (by simp)
      split
      · simp only [oneLine_append]
        exact ⟨⟨hleft, .ofList (by decide)⟩, hright⟩
      · simp only [oneLine_append]
        refine ⟨⟨⟨⟨⟨hp, ?_⟩, hleft⟩, ?_⟩, hright⟩, ?_⟩ <;>
          exact .ofList (by decide)
  · simp only [oneLine_append]
    refine ⟨⟨⟨hp, ?_⟩, oneLine_intercalate (.ofList (by decide)) hterms⟩, ?_⟩ <;>
      exact .ofList (by decide)

/-- **A formula with its names on one line is written on one line.** -/
theorem NamedIn.oneLine_render {f : Formula} (h : f.NamedIn {n | OneLine n}) :
    OneLine f.render := by
  induction f with
  | falsity =>
      show OneLine "0"
      exact .ofList (by decide)
  | atom predicate terms => exact oneLine_renderAtom h.1 h.2
  | neg inner ih => exact oneLine_append.mpr ⟨.ofList (by decide), ih h⟩
  | join op left right ihl ihr =>
      have hsign : OneLine op.sign := by cases op <;> exact .ofList (by decide)
      simp only [render, oneLine_append]
      refine ⟨⟨⟨⟨⟨⟨?_, ihl h.1⟩, ?_⟩, hsign⟩, ?_⟩, ihr h.2⟩, ?_⟩ <;>
        exact .ofList (by decide)
  | bind q var body ih =>
      have hword : OneLine q.word := by cases q <;> exact .ofList (by decide)
      simp only [render, oneLine_append]
      refine ⟨⟨⟨⟨hword, ?_⟩, h.1⟩, ?_⟩, ih h.2⟩ <;>
        exact .ofList (by decide)

end Formula

/-! ## §4. Messages. -/

theorem Shape.oneLine_describe (shape : Shape) : OneLine shape.describe := by
  cases shape <;> exact .ofList (by decide)

theorem Inapplicable.oneLine_message (reason : Inapplicable) : OneLine reason.message := by
  cases reason <;> exact .ofList (by decide)

theorem Violation.oneLine_message {v : Violation} (h : v.NamedIn {n | OneLine n}) :
    OneLine v.message := by
  have hordinal : ∀ index, OneLine (ordinal index) := by
    intro index
    rw [ordinal]
    exact oneLine_repr _
  cases v with
  | missingCitation index | missingSubproof index | missingAssumption index =>
      unfold message
      simp only [oneLine_append]
      refine ⟨⟨?_, hordinal index⟩, ?_⟩ <;>
        exact .ofList (by decide)
  | wrongShape index expected found =>
      unfold message
      simp only [oneLine_append]
      have hfound : OneLine found.render := h.oneLine_render
      refine ⟨⟨⟨⟨⟨⟨?_, hordinal index⟩, ?_⟩, expected.oneLine_describe⟩, ?_⟩, hfound⟩, ?_⟩ <;>
        exact .ofList (by decide)
  | resultShape expected =>
      exact oneLine_append.mpr ⟨.ofList (by decide), expected.oneLine_describe⟩
  | mismatch f g | noContradiction f g =>
      unfold message
      simp only [oneLine_append]
      refine ⟨⟨⟨⟨?_, h.1.oneLine_render⟩, ?_⟩, h.2.oneLine_render⟩, ?_⟩ <;>
        exact .ofList (by decide)
  | inapplicable reason => exact reason.oneLine_message
  | premissInSubproof | missingFlag => exact .ofList (by decide)
  | notFresh var | flagEscapes var =>
      unfold message
      simp only [oneLine_append]
      refine ⟨⟨?_, h⟩, ?_⟩ <;>
        exact .ofList (by decide)
  | wrongSubstitution term var bound =>
      unfold message
      simp only [oneLine_append]
      refine ⟨⟨⟨⟨⟨⟨?_, h.1⟩, ?_⟩, h.2.1⟩, ?_⟩, h.2.2⟩, ?_⟩ <;>
        exact .ofList (by decide)
  | notAnInstance general found =>
      unfold message
      simp only [oneLine_append]
      refine ⟨⟨⟨⟨?_, h.2.oneLine_render⟩, ?_⟩, h.1.oneLine_render⟩, ?_⟩ <;>
        exact .ofList (by decide)

theorem Expected.oneLine_describe (expected : Expected) : OneLine expected.describe := by
  cases expected with
  | token kind => cases kind <;> exact .ofList (by decide)
  | term | primary | endOfFormula => exact .ofList (by decide)

theorem Unexpected.oneLine_message {e : Unexpected} (h : ∀ text ∈ e.found, OneLine text) :
    OneLine e.message := by
  have hfound : OneLine (describeFound e.found) := by
    cases hfound : e.found with
    | none => exact .ofList (by decide)
    | some text =>
        unfold describeFound
        simp only [oneLine_append]
        refine ⟨⟨?_, h text hfound⟩, ?_⟩ <;>
          exact .ofList (by decide)
  unfold message
  simp only [oneLine_append]
  refine ⟨⟨⟨?_, e.expected.oneLine_describe⟩, ?_⟩, hfound⟩ <;>
    exact .ofList (by decide)

theorem StructureFault.oneLine_message (fault : StructureFault) : OneLine fault.message := by
  cases fault with
  | depthJump current wanted =>
      unfold message
      simp only [oneLine_append]
      refine ⟨⟨⟨?_, oneLine_repr current⟩, ?_⟩, oneLine_repr wanted⟩ <;>
        exact .ofList (by decide)
  | unopenedSubproof | assumptionOutside | flagOutside => exact .ofList (by decide)

/-- **A cause with its names on one line is told on one line.** -/
theorem FailureCause.oneLine_message {cause : FailureCause} (h : cause.NamedIn {n | OneLine n}) :
    OneLine cause.message := by
  cases cause with
  | unreadable e => exact oneLine_append.mpr ⟨.ofList (by decide), Unexpected.oneLine_message h⟩
  | unknownRule | duplicate => exact .ofList (by decide)
  | violation v => exact Violation.oneLine_message h
  | lineOrder previous =>
      unfold message
      simp only [oneLine_append]
      refine ⟨⟨?_, oneLine_repr previous⟩, ?_⟩ <;>
        exact .ofList (by decide)
  | misplaced fault => exact fault.oneLine_message

theorem CheckFailure.oneLine_message {failure : CheckFailure}
    (hcause : failure.cause.NamedIn {n | OneLine n}) (hrule : OneLine failure.ruleText) :
    OneLine failure.message := by
  unfold message
  simp only [oneLine_append]
  refine ⟨⟨⟨⟨⟨?_, oneLine_repr _⟩, ?_⟩, hrule⟩, ?_⟩, FailureCause.oneLine_message hcause⟩ <;>
    exact .ofList (by decide)

/-! ## §5. Lines of a proof. -/

/-- What a citation notes are names of tokens. -/
theorem Citation.namedIn_of_parse? {piece : List Char} {citation : Citation}
    (h : parse? piece = some citation) {note : Substitution}
    (hnote : citation.substitution? = some note) : note.NamedIn {n | OneLine n} := by
  have hnames : ∀ t ∈ Token.scan 0 piece, OneLine t.text := fun t ht => Token.oneLine_of_mem_scan ht
  unfold parse? at h
  generalize Token.scan 0 piece = tokens at h hnames
  unfold ofTokens? at h
  split at h
  · obtain ⟨number, -, rfl⟩ := Option.map_eq_some_iff.mp h
    exact absurd hnote (by simp [substitution?])
  · split at h
    · split at h
      · rw [← Option.some.inj h] at hnote
        exact absurd hnote (by simp [substitution?])
      · exact absurd h (by simp)
    · exact absurd h (by simp)
  · next n opening term slash var closing =>
      split at h
      · obtain ⟨number, -, rfl⟩ := Option.map_eq_some_iff.mp h
        rw [← Option.some.inj hnote]
        exact ⟨hnames term (by simp), hnames var (by simp)⟩
      · exact absurd h (by simp)
  · exact absurd h (by simp)

namespace ProofLine

variable {raw : String} {line : ProofLine}

/-- **Whatever names a line brings in**, they have no line end in them. -/
theorem namedIn_of_parse (h : parse raw = .ok line) : line.NamedIn {n | OneLine n} where
  flag z hz := by
    obtain ⟨parts, hall, hparts, -⟩ := exists_tokens_of_parse h
    rw [← hparts.flag] at hz
    obtain ⟨t, ht, rfl⟩ := Option.map_eq_some_iff.mp hz
    have hmem : t ∈ Token.tokenize raw := by
      rw [← hall]
      simp [LineTokens.all, ht]
    exact Token.oneLine_of_mem_scan hmem
  note cited hcited note hnote := by
    unfold citations Citation.parseList at hcited
    split at hcited
    · exact absurd hcited (by simp)
    · obtain ⟨piece, -, hpiece⟩ := List.mem_map.mp hcited
      exact Citation.namedIn_of_parse? hpiece hnote
  formula options f hread := by
    unfold ProofState.readFormula at hread
    split at hread
    · exact (Formula.wellFormed_of_parseExact hread).namedIn
    · exact (Formula.wellFormed_of_parse hread).namedIn
  complaint options e hread text hfound := by
    have hfails : Formula.parse line.formulaText = .error e
        ∨ Formula.parseExact line.formulaText = .error e := by
      unfold ProofState.readFormula at hread
      split at hread
      · exact Or.inr hread
      · exact Or.inl hread
    obtain ⟨used, rest, expected, htokens, rfl, -⟩ := Formula.inTime_of_parse hfails
    -- What was found is the first of the tokens that were left.
    obtain ⟨t, ht, rfl⟩ := Option.map_eq_some_iff.mp hfound
    have hmem : t ∈ Token.tokenize line.formulaText := by
      rw [htokens]
      exact List.mem_append_right used (List.mem_of_mem_head? ht)
    exact Token.oneLine_of_mem_scan hmem

theorem oneLine_ruleText (h : parse raw = .ok line) : OneLine line.ruleText := by
  obtain ⟨parts, hall, hparts, -⟩ := exists_tokens_of_parse h
  have hmem : parts.rule ∈ Token.tokenize raw := by
    rw [← hall]
    simp [LineTokens.all]
  rw [← hparts.rule.2]
  exact Token.oneLine_of_mem_scan hmem

end ProofLine

/-! ## §6. Whole texts. -/

theorem LineFault.oneLine_message (fault : LineFault) : OneLine fault.message := by
  obtain ⟨cause, span⟩ := fault
  cases cause <;> exact .ofList (by decide)

/-- The lines of a proof were cut from lines of a text. -/
theorem exists_parse_of_readProof {source : String} {located : List LocatedLine}
    (h : readProof source = .ok located) {line : ProofLine}
    (hline : line ∈ located.map LocatedLine.line) : ∃ raw, ProofLine.parse raw = .ok line := by
  obtain ⟨l, hl, rfl⟩ := List.mem_map.mp hline
  obtain ⟨i, hi⟩ := List.mem_iff_getElem?.mp hl
  obtain ⟨raw, -, -, hparse⟩ := readLines_getElem? h hi
  exact ⟨raw.text, hparse⟩

/-- **A failure is told on one line**, whatever the lines of the proof are. -/
theorem CheckFailure.oneLine_of_check {options : CheckOptions} {lines : List ProofLine}
    (hlines : ∀ line ∈ lines, ∃ raw, ProofLine.parse raw = .ok line) {failure : CheckFailure}
    (h : check options lines = .error failure) : OneLine failure.message := by
  have hnames : ∀ line ∈ lines, line.NamedIn {n | OneLine n} := by
    intro line hline
    obtain ⟨raw, hparse⟩ := hlines line hline
    exact ProofLine.namedIn_of_parse hparse
  unfold check at h
  split at h
  · next failure' hrun =>
      rw [Except.error.inj h] at hrun
      obtain ⟨hcause, line, hline, hrule⟩ := ProofState.NamedIn.empty.runFrom_error hnames hrun
      obtain ⟨raw, hparse⟩ := hlines line hline
      exact oneLine_message hcause (hrule ▸ ProofLine.oneLine_ruleText hparse)
  · exact absurd h (by simp)

/-- **The title of a rejected text is on one line.** -/
theorem SourceFailure.oneLine_title {options : CheckOptions} {source : String}
    {failure : SourceFailure} (h : checkSource options source = .error failure) (path : String) :
    OneLine (failure.diagnose path source).title := by
  unfold checkSource at h
  split at h
  · next failure' hread =>
      rw [Except.error.inj h] at hread
      obtain ⟨before, raw, after, fault, -, -, -, rfl⟩ := malformed_of_readLines hread
      exact oneLine_append.mpr ⟨.ofList (by decide), fault.oneLine_message⟩
  · next located hread =>
      split at h
      · next failure' hcheck =>
          rw [← Except.error.inj h]
          exact failure'.oneLine_of_check (fun _ => exists_parse_of_readProof hread) hcheck
      · exact absurd h (by simp)

namespace Outcome

/-- What a response is put together from: the verdict of the check, and a reason
on one line. -/
theorem exists_reason (options : CheckOptions) (path source : String) :
    ∃ verdict reason,
      (ofSource options path source).response = verdict ++ "\n" ++ ("Reason: " ++ reason)
        ∧ OneLine reason
        ∧ ((verdict = "Response: Success" ∧ ∃ proof, checkSource options source = .ok proof)
          ∨ (verdict = "Response: Failure"
              ∧ ∃ failure, checkSource options source = .error failure)) := by
  unfold ofSource
  cases h : checkSource options source with
  | ok proof =>
      refine ⟨"Response: Success", "proof is valid", ?_, .ofList (by decide),
        Or.inl ⟨rfl, proof, rfl⟩⟩
      show "Response: Success\nReason: proof is valid" = _
      decide +kernel
  | error failure =>
      refine ⟨"Response: Failure", (failure.diagnose path source).title, ?_,
        failure.oneLine_title h path, Or.inr ⟨rfl, failure, rfl⟩⟩
      have hfront : "Response: Failure\nReason: " = "Response: Failure" ++ "\n" ++ "Reason: " := by
        decide +kernel
      show "Response: Failure\nReason: " ++ (failure.diagnose path source).title = _
      rw [hfront, String.append_assoc]

/-- Two texts on one line each, with a line feed between them, have no other line
end. -/
theorem count_eq_one {first second : String} (hf : OneLine first) (hs : OneLine second) :
    (first ++ "\n" ++ second).toList.count '\n' = 1
      ∧ '\r' ∉ (first ++ "\n" ++ second).toList := by
  have hfeed : "\n".toList = ['\n'] := by decide
  have hzero : ∀ {s : String}, OneLine s → s.toList.count '\n' = 0 := fun h =>
    List.count_eq_zero.mpr fun hmem => (h _ hmem).1 rfl
  have hreturn : ∀ {s : String}, OneLine s → '\r' ∉ s.toList := fun h hmem => (h _ hmem).2 rfl
  rw [String.toList_append, String.toList_append, hfeed]
  constructor
  · rw [List.count_append, List.count_append, hzero hf, hzero hs]
    rfl
  · simp [hreturn hf, hreturn hs]

/-- **A response has two lines, a verdict and a reason**, whatever the text of the
proof and its path.  The verdict is that of the check. -/
theorem response_two_lines (options : CheckOptions) (path source : String) :
    (ofSource options path source).response.toList.count '\n' = 1
      ∧ '\r' ∉ (ofSource options path source).response.toList
      ∧ ∃ verdict reason,
        (ofSource options path source).response = verdict ++ "\n" ++ ("Reason: " ++ reason)
          ∧ OneLine verdict ∧ OneLine ("Reason: " ++ reason)
          ∧ (verdict = "Response: Success" ↔ ∃ proof, checkSource options source = .ok proof)
          ∧ (verdict = "Response: Failure" ↔
              ∃ failure, checkSource options source = .error failure) := by
  obtain ⟨verdict, reason, hresponse, hreason, hverdict⟩ := exists_reason options path source
  have hsecond : OneLine ("Reason: " ++ reason) :=
    oneLine_append.mpr ⟨.ofList (by decide), hreason⟩
  have hfirst : OneLine verdict := by
    rcases hverdict with ⟨rfl, -⟩ | ⟨rfl, -⟩
    · exact .ofList (by decide)
    · exact .ofList (by decide)
  obtain ⟨hcount, hreturn⟩ := count_eq_one hfirst hsecond
  rw [hresponse]
  refine ⟨hcount, hreturn, verdict, reason, rfl, hfirst, hsecond, ?_⟩
  -- A text is either accepted or rejected, and the two verdicts differ.
  rcases hverdict with ⟨rfl, proof, hproof⟩ | ⟨rfl, failure, hfailure⟩
  · rw [hproof]
    refine ⟨⟨fun _ => ⟨proof, rfl⟩, fun _ => rfl⟩, fun h => absurd h (by decide), ?_⟩
    rintro ⟨failure, hfailure⟩
    exact absurd hfailure (by simp)
  · rw [hfailure]
    refine ⟨⟨fun h => absurd h (by decide), ?_⟩, fun _ => ⟨failure, rfl⟩, fun _ => rfl⟩
    rintro ⟨proof, hproof⟩
    exact absurd hproof (by simp)

end Outcome

end NaturalDeduction
