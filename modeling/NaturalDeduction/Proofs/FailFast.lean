/-
  NaturalDeduction.Proofs.FailFast
  ────────────────────────────────
  **A CHECK STOPS AT THE FIRST LINE AT FAULT**, and keeps a faithful record up
  to it.

  A failure depends on the lines up to the one it names and on nothing behind
  it.  A check that goes through has kept its records in step: each line stands
  once in the order and once among the formulas, under its own number and with
  the formula that its own text reads as, and no later line has taken its place.
  Main statements:

    • `check_eq_error_iff` — when a check fails, and with which failure,
    • `Accepted.parse_eq`, `History.formula?_eq_some_iff` — what is on
      record after some lines.
-/
import NaturalDeduction.Proofs.Hypotheses
import NaturalDeduction.Proofs.Strictness

namespace NaturalDeduction

open ProofState (Accepted History)

/-! ## §1. Failures. -/

/-- **A check fails exactly if it accepts some lines and refuses the next one**,
whatever comes after. -/
theorem check_eq_error_iff {options : CheckOptions} {lines : List ProofLine}
    {failure : CheckFailure} :
    check options lines = .error failure ↔
      ∃ before line after s cause span, lines = before ++ line :: after
        ∧ ProofState.run options before = .ok s ∧ s.step options line = .error (cause, span)
        ∧ failure = ⟨before.length, line.number, line.ruleText, cause, span⟩ := by
  have hrun : check options lines = .error failure
      ↔ ProofState.runFrom options .empty 0 lines = .error failure := by
    unfold check ProofState.run
    cases ProofState.runFrom options .empty 0 lines with
    | error failure' => simp
    | ok s => simp
  rw [hrun, ProofState.runFrom_eq_error_iff]
  simp only [Nat.zero_add, ProofState.run]

/-! ## §2. The record. -/

namespace ProofState

variable {options : CheckOptions} {h : List (Accepted options)} {s : ProofState}

/-- What is on record for a line is what its own text reads as. -/
theorem Accepted.parse_eq (t : Accepted options) :
    (if options.exactFormulas then Formula.parseExact t.line.formulaText
      else Formula.parse t.line.formulaText) = .ok t.placed.formula :=
  (place_eq_ok t.place_eq).2.1

/-- **A number has a formula on record exactly if one of the lines has this
number and this formula.** -/
theorem History.formula?_eq_some_iff (hh : History options h s) {n : Nat} {f : Formula} :
    s.formula? n = some f ↔ ∃ t ∈ h, t.line.number = n ∧ t.placed.formula = f := by
  constructor
  · intro hf
    have hmem := mem_of_lookup hf
    rw [hh.formulas_eq, List.mem_reverse] at hmem
    obtain ⟨t, ht, hrecord⟩ := List.mem_map.mp hmem
    obtain ⟨hnumber, hformula⟩ := Prod.mk.inj hrecord
    exact ⟨t, ht, hnumber, hformula⟩
  · rintro ⟨t, ht, rfl, rfl⟩
    obtain ⟨i, hi⟩ := List.mem_iff_getElem?.mp ht
    exact hh.formula?_eq hi

end ProofState

/-- An accepted proof has a history with its lines, and its record is what that
history leads to. -/
theorem exists_history_of_check {options : CheckOptions} {lines : List ProofLine}
    {proof : VerifiedProof} (h : check options lines = .ok proof) :
    ∃ (t : List (Accepted options)) (s : ProofState), History options t s
      ∧ ProofState.run options lines = .ok s ∧ t.map Accepted.line = lines ∧ proof = s.finish := by
  obtain ⟨s, hrun, hproof⟩ := check_eq_ok h
  obtain ⟨t, ht, hlines⟩ := ProofState.exists_history_of_runFrom _ .start hrun
  exact ⟨t, s, ht, hrun, hlines, hproof⟩

/-! ## §3. Whole proofs. -/

/-- **A check stops at the first line at fault and keeps a faithful record.**
If it fails at a line, it accepts the lines before, and it fails in the same way
whatever stands behind that line.  If it accepts, no number is used twice, the
order is that of the lines, the formulas have these numbers as keys, each once
and no others, each number leads to the formula that the text of its own line
reads as, and the conclusion is the formula of the last line. -/
theorem check_stops_and_records (options : CheckOptions) (lines : List ProofLine) :
    (∀ failure, check options lines = .error failure →
        (∃ proof, check options (lines.take failure.index) = .ok proof)
          ∧ ∀ others, check options (lines.take (failure.index + 1) ++ others) = .error failure)
      ∧ ∀ proof, check options lines = .ok proof →
          (lines.map ProofLine.number).Nodup
            ∧ proof.order = lines.map ProofLine.number
            ∧ (proof.formulas.map Prod.fst).Perm (lines.map ProofLine.number)
            ∧ (∀ n, (∃ f, proof.formula? n = some f) ↔ n ∈ lines.map ProofLine.number)
            ∧ (∀ line ∈ lines, ∃ f,
                (if options.exactFormulas then Formula.parseExact line.formulaText
                  else Formula.parse line.formulaText) = .ok f
                ∧ proof.formula? line.number = some f)
            ∧ proof.conclusion? = lines.getLast?.bind fun line => proof.formula? line.number := by
  refine ⟨fun failure h => ?_, fun proof h => ?_⟩
  · obtain ⟨before, line, after, s, cause, span, rfl, hbefore, hrefused, rfl⟩ :=
      check_eq_error_iff.mp h
    refine ⟨⟨s.finish, ?_⟩, fun others => ?_⟩
    · dsimp only
      rw [List.take_left]
      exact check_of_run hbefore
    · have htake : (before ++ line :: after).take (before.length + 1) ++ others
          = before ++ line :: others := by
        rw [List.take_length_add_append, List.append_assoc]
        rfl
      dsimp only
      rw [htake]
      exact check_eq_error_iff.mpr
        ⟨before, line, others, s, cause, span, rfl, hbefore, hrefused, rfl⟩
  · -- The record is compared with the history of the run, line by line.
    obtain ⟨t, s, ht, hrun, rfl, rfl⟩ := exists_history_of_check h
    have hs : s.InStep := ProofState.InStep.empty.runFrom hrun
    have horder : s.order = (t.map Accepted.line).map ProofLine.number := by
      rw [ht.order_eq, List.map_map]
      rfl
    have hformula : ∀ u ∈ t, s.formula? u.line.number = some u.placed.formula :=
      fun u hu => ht.formula?_eq_some_iff.mpr ⟨u, hu, rfl, rfl⟩
    rw [← horder]
    refine ⟨hs.nodup, rfl, ?_, fun n => ?_, ?_, ?_⟩
    · show (s.formulas.map Prod.fst).Perm s.order
      rw [hs.formulas]
      exact List.reverse_perm s.order
    · show (∃ f, s.formula? n = some f) ↔ n ∈ s.order
      rw [← Option.ne_none_iff_exists', ne_eq, hs.formula?_eq_none_iff, not_not]
    · intro line hline
      obtain ⟨u, hu, rfl⟩ := List.mem_map.mp hline
      exact ⟨_, u.parse_eq, hformula u hu⟩
    · show s.order.getLast?.bind s.formula? = _
      rw [horder, List.getLast?_map]
      cases (t.map Accepted.line).getLast? with
      | none => rfl
      | some line => rfl

/-- Line 1 comes back as the third line: the two lines before it are accepted,
and the failure is the same whatever follows.  Out of order but each with a
number of its own, three lines are accepted: they keep their order, each leads
to its own formula, and the last of them is the conclusion. -/
theorem check_stops_and_records_duplicate :
    ((∃ proof, check ⟨false, true⟩ ((proofLines
            "2. P -premiss :\n1. Q -premiss :\n1. R -premiss :\n4. S -premiss :").take 2)
          = .ok proof)
        ∧ ∀ others, check ⟨false, true⟩ ((proofLines
            "2. P -premiss :\n1. Q -premiss :\n1. R -premiss :\n4. S -premiss :").take 3 ++ others)
          = .error ⟨2, 1, "-premiss", .duplicate, ⟨0, 15⟩⟩)
      ∧ ∃ proof, check ⟨false, true⟩
            (proofLines "2. P -premiss :\n3. Q -premiss :\n1. Q v P v-i1 : 3") = .ok proof
          ∧ proof.order = [2, 3, 1] ∧ (proof.formulas.map Prod.fst).Perm [2, 3, 1]
          ∧ proof.formula? 2 = some (.atom "P" []) ∧ proof.formula? 3 = some (.atom "Q" [])
          ∧ (∀ n, (∃ f, proof.formula? n = some f) ↔ n ∈ [2, 3, 1])
          ∧ proof.conclusion? = some (.disj (.atom "Q" []) (.atom "P" [])) := by
  have hfails : check ⟨false, true⟩
      (proofLines "2. P -premiss :\n1. Q -premiss :\n1. R -premiss :\n4. S -premiss :")
        = .error ⟨2, 1, "-premiss", .duplicate, ⟨0, 15⟩⟩ := by decide +kernel
  have hlines : (proofLines "2. P -premiss :\n3. Q -premiss :\n1. Q v P v-i1 : 3").map
      ProofLine.number = [2, 3, 1] := by decide +kernel
  have haccepts : check ⟨false, true⟩
      (proofLines "2. P -premiss :\n3. Q -premiss :\n1. Q v P v-i1 : 3")
        = .ok ⟨[(1, .disj (.atom "Q" []) (.atom "P" [])), (3, .atom "Q" []), (2, .atom "P" [])],
          [2, 3, 1]⟩ := by decide +kernel
  obtain ⟨-, horder, hkeys, hformulas, -, -⟩ := (check_stops_and_records _ _).2 _ haccepts
  rw [hlines] at horder hkeys hformulas
  exact ⟨(check_stops_and_records _ _).1 _ hfails, _, haccepts, horder, hkeys, rfl, rfl, hformulas,
    rfl⟩

end NaturalDeduction
