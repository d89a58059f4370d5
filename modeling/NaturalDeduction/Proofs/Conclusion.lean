/-
  NaturalDeduction.Proofs.Conclusion
  ──────────────────────────────────
  **WHERE A PROOF ENDS.**

  The conclusion of an accepted proof is the formula of its last line, and
  nothing asks that the subproofs be closed by then.  A line stands outside
  every subproof exactly if its depth is 0 (`depth_eq_zero_iff`), so whether
  the conclusion rests on an assumption can be read off the bars of the last
  line, and `conclusion_outside_iff` says so.
-/
import NaturalDeduction.Proofs.Hypotheses

namespace NaturalDeduction

open ProofState (Accepted History)

/-- Line `j` stands in no subproof that a line of the text starts. -/
def Outside (lines : List ProofLine) (j : Nat) : Prop :=
  ∀ i, ¬ Entry.Encloses (lines.map ProofLine.entry) i j

namespace ProofState.History

variable {options : CheckOptions} {h : List (Accepted options)} {s : ProofState}

/-- Around a line that stands in a subproof there is the line that starts
it. -/
theorem exists_encloses (hh : History options h s) {j : Nat} {t : Accepted options}
    (hj : h[j]? = some t) (hne : t.path ≠ []) :
    ∃ i, Entry.Encloses ((h.map Accepted.line).map ProofLine.entry) i j := by
  -- The walk up to the line leads to its place, and every subproof that is open
  -- there has a first line.
  obtain ⟨s', hw, hpath⟩ := hh.walk.take_path (visit_getElem? hj)
  have hself : t.path <+: s'.path := hpath ▸ List.prefix_refl _
  obtain ⟨v, hv, hopens, hvpath⟩ := hw.exists_opener hne hself
  obtain ⟨i, hi⟩ := List.mem_iff_getElem?.mp hv
  have hij : i ≤ j := by
    have hlt := (List.getElem?_eq_some_iff.mp hi).1
    rw [List.length_take] at hlt
    omega
  rw [List.getElem?_take_of_lt (by omega)] at hi
  obtain ⟨u, hu, rfl⟩ := exists_of_visit_getElem? hi
  have hpre : u.path <+: t.path := hvpath ▸ List.prefix_refl _
  refine ⟨i, hij, ⟨u.line.entry, ?_, hopens⟩, (hh.isPrefix_iff_lasts hu hj hij).mp hpre⟩
  rw [Option.mem_def, List.getElem?_map, line_getElem? hu, Option.map_some]

/-- **A line stands outside every subproof exactly if its depth is 0.** -/
theorem depth_eq_zero_iff (hh : History options h s) {j : Nat} {t : Accepted options}
    (hj : h[j]? = some t) : t.line.depth = 0 ↔ Outside (h.map Accepted.line) j := by
  rw [← hh.length_path hj, List.length_eq_zero_iff]
  constructor
  · rintro hempty i ⟨hij, ⟨e, he, hopens⟩, hlasts⟩
    rw [Option.mem_def, List.getElem?_map, Option.map_eq_some_iff] at he
    obtain ⟨line, hline, rfl⟩ := he
    rw [List.getElem?_map, Option.map_eq_some_iff] at hline
    obtain ⟨u, hu, rfl⟩ := hline
    have hpre := (hh.isPrefix_iff_lasts hu hj hij).mpr hlasts
    rw [hempty, List.prefix_nil] at hpre
    exact u.path_ne_nil hopens hpre
  · intro houtside
    by_contra hne
    obtain ⟨i, hi⟩ := hh.exists_encloses hj hne
    exact houtside i hi

/-- The path of a line stays on record to the end. -/
theorem place_eq (hh : History options h s) {j : Nat} {t : Accepted options}
    (hj : h[j]? = some t) : s.scopes.places.lookup t.line.number = some t.path := by
  have hn : ((h.map Accepted.visit).map fun v => v.entry.number).Nodup := by
    rw [List.map_map]
    exact hh.nodup
  exact hh.walk.places_lookup hn (List.mem_map_of_mem (List.mem_of_getElem? hj))

end ProofState.History

/-- **The conclusion is the formula of the last line**, and this line was
verified outside every subproof, on an empty path and with no assumption to
rest on, exactly if its depth is 0. -/
theorem conclusion_outside_iff {options : CheckOptions} {text : String} {proof : VerifiedProof}
    (h : checkSource options text = .ok proof) (hne : 0 < proof.length) :
    ∃ j line f s, j + 1 = (proofLines text).length ∧ (proofLines text)[j]? = some line
      ∧ proof.lines[j]? = some (line.number, f) ∧ proof.conclusion? = some f
      ∧ ProofState.run options (proofLines text) = .ok s
      ∧ (line.depth = 0 ↔ s.scopes.places.lookup line.number = some [])
      ∧ (line.depth = 0 ↔ Outside (proofLines text) j)
      ∧ (line.depth = 0 → ∀ i, RestsOn (proofLines text) j i →
          ∀ l ∈ (proofLines text)[i]?, l.ruleText = Rule.premiss.name) := by
  obtain ⟨steps, s, hh, hrun, hlines, rfl⟩ := exists_history h
  have hpos : 0 < steps.length := hh.length_finish ▸ hne
  have hj : steps[steps.length - 1]? = some (steps[steps.length - 1]) :=
    List.getElem?_eq_getElem (by omega)
  generalize steps[steps.length - 1] = t at hj
  rw [← hlines] at hrun ⊢
  refine ⟨steps.length - 1, t.line, t.placed.formula, s, by simp; omega,
    History.line_getElem? hj, hh.lines_finish_getElem? hj, ?_, hrun, ?_,
    hh.depth_eq_zero_iff hj, ?_⟩
  · show s.order.getLast?.bind s.formula? = some t.placed.formula
    rw [hh.order_eq, List.getLast?_eq_getElem?, List.length_map, List.getElem?_map, hj]
    exact hh.formula?_eq hj
  · rw [hh.place_eq hj, Option.some.injEq, ← List.length_eq_zero_iff, hh.length_path hj]
  · intro hdepth i hi l hl
    rw [Option.mem_def, List.getElem?_map, Option.map_eq_some_iff] at hl
    obtain ⟨x, hx, rfl⟩ := hl
    exact x.ruleText_eq_iff.mpr (hh.premiss_of_restsOn hj hx hdepth hi).1

/-- Behind a subproof that was closed again, a proof ends outside. -/
theorem conclusion_outside_iff_impIntro :
    Outside (proofLines "1. | P -assumption :\n2. P > P >-i : 1-1") 1 := by
  obtain ⟨haccepted, hlength, hdepth⟩ :
      checkSource {} "1. | P -assumption :\n2. P > P >-i : 1-1"
          = .ok ⟨[(2, .imp (.atom "P" []) (.atom "P" [])), (1, .atom "P" [])], [1, 2]⟩
        ∧ (proofLines "1. | P -assumption :\n2. P > P >-i : 1-1").length = 2
        ∧ (proofLines "1. | P -assumption :\n2. P > P >-i : 1-1")[1]?.map ProofLine.depth
          = some 0 := by decide +kernel
  obtain ⟨j, line, -, -, hj, hline, -, -, -, -, houtside, -⟩ :=
    conclusion_outside_iff haccepted (by decide)
  obtain rfl : j = 1 := by omega
  rw [hline, Option.map_some, Option.some.injEq] at hdepth
  exact houtside.mp hdepth

/-- **A proof may end inside a subproof**: the assumption `Q` is the conclusion
of a text that has only assumed it. -/
theorem not_conclusion_outside :
    ¬ ∀ (options : CheckOptions) (text : String) (proof : VerifiedProof) (s : ProofState),
      checkSource options text = .ok proof → 0 < proof.length →
      ProofState.run options (proofLines text) = .ok s →
      ∀ line ∈ (proofLines text).getLast?,
        line.depth = 0 ∧ s.scopes.places.lookup line.number = some [] := by
  intro hall
  obtain ⟨haccepted, hdepth⟩ :
      checkSource {} "1. P -premiss :\n2. | Q -assumption :"
          = .ok ⟨[(2, .atom "Q" []), (1, .atom "P" [])], [1, 2]⟩
        ∧ (proofLines "1. P -premiss :\n2. | Q -assumption :").getLast?.map ProofLine.depth
          = some 1 := by decide +kernel
  obtain ⟨line, hline, hone⟩ := Option.map_eq_some_iff.mp hdepth
  obtain ⟨-, s, -, hrun, -, -⟩ := exists_history haccepted
  have hzero := (hall {} _ _ s haccepted (by decide) hrun line hline).1
  omega

end NaturalDeduction
