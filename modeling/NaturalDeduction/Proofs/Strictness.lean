/-
  NaturalDeduction.Proofs.Strictness
  ──────────────────────────────────
  **THE OPTIONS ONLY FILTER.**

  Strict order and exact formulas decide which proofs are accepted, never what
  they prove.  Each option adds one demand to a line: that its number be greater
  than the last, or that its text be one formula from end to end.  A check under
  any options is the check under the most lenient ones with these demands on
  top:

    • `step_eq_ok_iff` — for one line, with the demands put on it,
    • `runFrom_eq_ok_iff` — for all lines, where the numbers increase from the
      last line on,
    • `check_eq_ok_iff` — for whole proofs.
-/
import NaturalDeduction.Proofs.History
import NaturalDeduction.Proofs.Reading

namespace NaturalDeduction

/-- The options that demand least. -/
def CheckOptions.lenient : CheckOptions := ⟨false, false⟩

/-- A line whose text is one formula from end to end. -/
def ProofLine.Exact (line : ProofLine) : Prop :=
  ∃ f, Formula.parseExact line.formulaText = .ok f

/-- A text that is one formula is read as that formula when more could
follow. -/
theorem Formula.parse_of_parseExact {text : String} {f : Formula}
    (h : parseExact text = .ok f) : parse text = .ok f := by
  obtain ⟨hlt, hparsed⟩ := parseExact_eq_ok_iff.mp h
  unfold parse
  dsimp only [Cursor.ofText]
  rw [hparsed]

namespace ProofState

variable {options : CheckOptions} {s s' : ProofState} {line : ProofLine}

/-! ## §1. One line. -/

/-- Order is asked of the numbers only under strict order. -/
theorem checkOrder_eq_ok_iff :
    checkOrder options s line = .ok () ↔
      s.formula? line.number = none
        ∧ (options.strictOrder = true → ∀ previous ∈ s.lastLine, previous < line.number) := by
  unfold checkOrder
  cases hknown : s.formula? line.number with
  | some f => simp
  | none =>
      cases options.strictOrder with
      | false => simp
      | true =>
          cases s.lastLine with
          | none => simp
          | some previous =>
              by_cases hle : line.number ≤ previous
              · simp [hle]
              · simp [hle, Nat.lt_of_not_le hle]

/-- Exactness decides whether a formula is read, not which one. -/
theorem readFormula_eq_ok_iff {f : Formula} :
    readFormula options line = .ok f ↔
      Formula.parse line.formulaText = .ok f ∧ (options.exactFormulas = true → line.Exact) := by
  unfold readFormula
  cases options.exactFormulas with
  | false => simp
  | true =>
      simp only [if_true, forall_const]
      constructor
      · intro h
        exact ⟨Formula.parse_of_parseExact h, f, h⟩
      · rintro ⟨hparse, g, hexact⟩
        -- What the exact reading gives, the lenient one gives as well.
        have hsame := Formula.parse_of_parseExact hexact
        rw [hparse, Except.ok.injEq] at hsame
        rw [hsame, hexact]

/-- A step looks at the options for the order and the formula alone. -/
theorem step_congr {options' : CheckOptions}
    (horder : checkOrder options s line = checkOrder options' s line)
    (hread : readFormula options line = readFormula options' line) :
    s.step options line = s.step options' line := by
  unfold step place
  rw [horder, hread]

/-- A line that passes the first two tests under two options fares alike under
both. -/
theorem step_eq_of_tests {options' : CheckOptions} {f : Formula}
    (horder : checkOrder options s line = .ok ()) (hread : readFormula options line = .ok f)
    (horder' : checkOrder options' s line = .ok ()) (hread' : readFormula options' line = .ok f) :
    s.step options line = s.step options' line :=
  step_congr (horder.trans horder'.symm) (hread.trans hread'.symm)

/-- **A line is accepted exactly if the most lenient check accepts it and it
meets the demands.** -/
theorem step_eq_ok_iff :
    s.step options line = .ok s' ↔
      s.step .lenient line = .ok s'
        ∧ (options.strictOrder = true → ∀ previous ∈ s.lastLine, previous < line.number)
        ∧ (options.exactFormulas = true → line.Exact) := by
  constructor
  · intro h
    obtain ⟨t, rfl, rfl, -⟩ := exists_accepted_of_step h
    obtain ⟨horder, hread, -⟩ := place_eq_ok t.place_eq
    obtain ⟨hnew, hincreasing⟩ := checkOrder_eq_ok_iff.mp horder
    obtain ⟨hparse, hexact⟩ := readFormula_eq_ok_iff.mp hread
    -- The lenient tests ask for a part of what the line has passed.
    have horder' : checkOrder .lenient t.before t.line = .ok () :=
      checkOrder_eq_ok_iff.mpr ⟨hnew, fun hstrict => absurd hstrict (by decide)⟩
    have hread' : readFormula .lenient t.line = .ok t.placed.formula := hparse
    exact ⟨step_eq_of_tests horder hread horder' hread' ▸ h, hincreasing, hexact⟩
  · rintro ⟨h, hincreasing, hexact⟩
    obtain ⟨t, rfl, rfl, -⟩ := exists_accepted_of_step h
    obtain ⟨horder, hread, -⟩ := place_eq_ok t.place_eq
    have hnew := (checkOrder_eq_ok_iff.mp horder).1
    have hparse := (readFormula_eq_ok_iff.mp hread).1
    have horder' := checkOrder_eq_ok_iff.mpr ⟨hnew, hincreasing⟩
    have hread' := readFormula_eq_ok_iff.mpr ⟨hparse, hexact⟩
    exact step_eq_of_tests horder hread horder' hread' ▸ h

/-! ## §2. All lines. -/

theorem lastLine_of_step (h : s.step options line = .ok s') :
    s'.lastLine = some line.number := by
  obtain ⟨t, -, rfl, rfl⟩ := exists_accepted_of_step h
  rw [t.after_eq]

/-- Numbers increase behind a last one exactly if the first is greater than it
and the rest increase. -/
theorem isChain_behind_iff {last : Option Nat} {n : Nat} {rest : List Nat} :
    (last.toList ++ n :: rest).IsChain (· < ·) ↔
      (∀ previous ∈ last, previous < n) ∧ (n :: rest).IsChain (· < ·) := by
  cases last with
  | none => simp
  | some previous => simp [List.isChain_cons_cons]

/-- **Lines are accepted exactly if the most lenient check accepts them and they
meet the demands**, the numbers counting from the last line on record. -/
theorem runFrom_eq_ok_iff {lines : List ProofLine} {index : Nat} :
    runFrom options s index lines = .ok s' ↔
      runFrom .lenient s index lines = .ok s'
        ∧ (options.strictOrder = true →
            (s.lastLine.toList ++ lines.map ProofLine.number).IsChain (· < ·))
        ∧ (options.exactFormulas = true → ∀ line ∈ lines, line.Exact) := by
  induction lines generalizing s index with
  | nil =>
      have hchain : s.lastLine.toList.IsChain (· < ·) := by
        cases s.lastLine with
        | none => exact .nil
        | some previous => exact .singleton previous
      simp [runFrom, hchain]
  | cons line rest ih =>
      rw [runFrom_cons_eq_ok_iff, runFrom_cons_eq_ok_iff, List.map_cons, isChain_behind_iff]
      constructor
      · rintro ⟨t, hstep, hrun⟩
        obtain ⟨hlenient, hfirst, hexact⟩ := step_eq_ok_iff.mp hstep
        obtain ⟨hrest, hchain, hall⟩ := ih.mp hrun
        -- Behind the first line, the last number on record is its own.
        rw [lastLine_of_step hstep] at hchain
        exact ⟨⟨t, hlenient, hrest⟩, fun hstrict => ⟨hfirst hstrict, hchain hstrict⟩,
          fun hex => List.forall_mem_cons.mpr ⟨hexact hex, hall hex⟩⟩
      · rintro ⟨⟨t, hlenient, hrest⟩, hchain, hall⟩
        refine ⟨t, step_eq_ok_iff.mpr ⟨hlenient, ?_, ?_⟩, ih.mpr ⟨hrest, ?_, ?_⟩⟩
        · intro hstrict
          exact (hchain hstrict).1
        · intro hex
          exact (List.forall_mem_cons.mp (hall hex)).1
        · intro hstrict
          rw [lastLine_of_step hlenient]
          exact (hchain hstrict).2
        · intro hex
          exact (List.forall_mem_cons.mp (hall hex)).2

end ProofState

/-! ## §3. Whole proofs. -/

theorem check_of_run {options : CheckOptions} {lines : List ProofLine} {s : ProofState}
    (h : ProofState.run options lines = .ok s) : check options lines = .ok s.finish := by
  unfold check
  rw [h]

/-- **A proof is accepted exactly if the most lenient check accepts it and it
meets the demands**; what is verified is the same. -/
theorem check_eq_ok_iff {options : CheckOptions} {lines : List ProofLine}
    {proof : VerifiedProof} :
    check options lines = .ok proof ↔
      check .lenient lines = .ok proof
        ∧ (options.strictOrder = true → (lines.map ProofLine.number).Pairwise (· < ·))
        ∧ (options.exactFormulas = true → ∀ line ∈ lines, line.Exact) := by
  rw [← List.isChain_iff_pairwise]
  constructor
  · intro h
    obtain ⟨s, hrun, rfl⟩ := check_eq_ok h
    obtain ⟨hlenient, hchain, hexact⟩ := ProofState.runFrom_eq_ok_iff.mp hrun
    exact ⟨check_of_run hlenient, hchain, hexact⟩
  · rintro ⟨h, hchain, hexact⟩
    obtain ⟨s, hrun, rfl⟩ := check_eq_ok h
    exact check_of_run (ProofState.runFrom_eq_ok_iff.mpr ⟨hrun, hchain, hexact⟩)

/-- **The options only filter.**  Under strict order the check accepts exactly
the proofs it accepts without it whose line numbers increase; with exact
formulas, exactly those it accepts without it whose texts are one formula each.
Where two settings both accept, what is verified is the same. -/
theorem check_filtered_by_options (lines : List ProofLine) :
    (∀ options : CheckOptions,
        (∃ proof, check { options with strictOrder := true } lines = .ok proof) ↔
          (∃ proof, check { options with strictOrder := false } lines = .ok proof)
            ∧ (lines.map ProofLine.number).Pairwise (· < ·))
      ∧ (∀ options : CheckOptions,
          (∃ proof, check { options with exactFormulas := true } lines = .ok proof) ↔
            (∃ proof, check { options with exactFormulas := false } lines = .ok proof)
              ∧ ∀ line ∈ lines, ∃ f, Formula.parseExact line.formulaText = .ok f)
      ∧ ∀ options options' proof proof', check options lines = .ok proof →
          check options' lines = .ok proof' → proof = proof' := by
  refine ⟨fun options => ⟨?_, ?_⟩, fun options => ⟨?_, ?_⟩, ?_⟩
  · rintro ⟨proof, h⟩
    obtain ⟨hlenient, horder, hexact⟩ := check_eq_ok_iff.mp h
    refine ⟨⟨proof, check_eq_ok_iff.mpr ⟨hlenient, ?_, hexact⟩⟩, horder rfl⟩
    intro hstrict
    exact Bool.noConfusion hstrict
  · rintro ⟨⟨proof, h⟩, horder⟩
    obtain ⟨hlenient, -, hexact⟩ := check_eq_ok_iff.mp h
    exact ⟨proof, check_eq_ok_iff.mpr ⟨hlenient, fun _ => horder, hexact⟩⟩
  · rintro ⟨proof, h⟩
    obtain ⟨hlenient, horder, hexact⟩ := check_eq_ok_iff.mp h
    refine ⟨⟨proof, check_eq_ok_iff.mpr ⟨hlenient, horder, ?_⟩⟩, hexact rfl⟩
    intro hex
    exact Bool.noConfusion hex
  · rintro ⟨⟨proof, h⟩, hexact⟩
    obtain ⟨hlenient, horder, -⟩ := check_eq_ok_iff.mp h
    exact ⟨proof, check_eq_ok_iff.mpr ⟨hlenient, horder, fun _ => hexact⟩⟩
  · intro options options' proof proof' h h'
    have hlenient := (check_eq_ok_iff.mp h).1
    rw [(check_eq_ok_iff.mp h').1, Except.ok.injEq] at hlenient
    exact hlenient.symm

/-- Line 2 stands before line 1, and a parenthesis that was never opened stands
behind the formula of line 1: without the options the proof is accepted, with
either of them it is not.  A proof in good order is accepted by both, with the
same result. -/
theorem check_filtered_by_options_disordered :
    ((∃ proof, check ⟨false, false⟩ (proofLines "2. P -premiss :\n1. Q ) -premiss :") = .ok proof)
        ∧ (¬ ∃ proof, check ⟨true, false⟩ (proofLines "2. P -premiss :\n1. Q ) -premiss :")
            = .ok proof)
        ∧ ¬ ∃ proof, check ⟨false, true⟩ (proofLines "2. P -premiss :\n1. Q ) -premiss :")
            = .ok proof)
      ∧ ∀ proof, check ⟨false, false⟩ (proofLines "1. P -premiss :\n2. ~~P ~~-i : 1") = .ok proof →
          (⟨[(2, .neg (.neg (.atom "P" []))), (1, .atom "P" [])], [1, 2]⟩ : VerifiedProof)
            = proof := by
  have haccepted : check ⟨false, false⟩ (proofLines "2. P -premiss :\n1. Q ) -premiss :")
      = .ok ⟨[(1, .atom "Q" []), (2, .atom "P" [])], [2, 1]⟩ := by decide +kernel
  obtain ⟨hstrict, hexact, -⟩ :=
    check_filtered_by_options (proofLines "2. P -premiss :\n1. Q ) -premiss :")
  refine ⟨⟨⟨_, haccepted⟩, ?_, ?_⟩, ?_⟩
  · intro h
    exact absurd ((hstrict ⟨true, false⟩).mp h).2 (by decide +kernel)
  · intro h
    have hread : ∀ line ∈ proofLines "2. P -premiss :\n1. Q ) -premiss :",
        (Formula.parseExact line.formulaText).isOk = true := by
      intro line hline
      obtain ⟨f, hf⟩ := ((hexact ⟨false, true⟩).mp h).2 line hline
      rw [hf]
      rfl
    exact absurd hread (by decide +kernel)
  · intro proof h
    exact (check_filtered_by_options _).2.2 ⟨true, true⟩ ⟨false, false⟩ _ _ (by decide +kernel) h

end NaturalDeduction
