/-
  NaturalDeduction.Proofs.Soundness
  ─────────────────────────────────
  **ACCEPTED LINES ARE CONSEQUENCES** of what they rest on.

  The invariant of a check is that every accepted line is true wherever the
  premisses up to it and the assumptions around it are (`History.holds`).  One
  rule does not keep it by itself: the elimination of `exists` looks for its
  flag in the lines that could be seen when the subproof was opened, and not in
  the existential formula.  So two conditions on the text are given:

    • `FlagApart` — the flag is not free in the cited existential formula,
    • `FlagApartIfLate` — the same, asked only where the existential formula
      comes after the subproof was opened.

  The second is enough, since a fresh flag does not occur in what came before
  (`Box.not_isFree_of_lt`), and without it a false line can be accepted.
-/
import Mathlib.Tactic.IntervalCases
import NaturalDeduction.Proofs.Hypotheses
import NaturalDeduction.Proofs.RuleSoundness

namespace NaturalDeduction

universe u

namespace ProofState

variable {options : CheckOptions} {h : List (Accepted options)} {s : ProofState}

/-! ## §1. Truth along a history. -/

/-- All that line `j` rests on is true. -/
def Grounds (M : Model.{u}) (h : List (Accepted options)) (j : Nat) (v : M.Assignment) : Prop :=
  ∀ a x, h[a]? = some x → RestsOn (h.map Accepted.line) j a → x.placed.formula.holds M v

/-- **A closed subproof may be relied on** once its last line is known to
follow from what it rests on. -/
theorem Box.backed {M : Model.{u}} {j : Nat} {t : Accepted options} {b : CitedSubproof}
    (box : Box h j b) (hh : History options h s) (hj : h[j]? = some t)
    (hparent : box.parent <+: t.path)
    (htrue : ∀ v, Grounds M h box.stop v → box.last.placed.formula.holds M v) :
    b.Backed M (Grounds M h j) := by
  -- The hypotheses of the subproof: what its last line rests on, without the
  -- assumption of the subproof itself.
  refine ⟨fun v => ∀ a x, h[a]? = some x → RestsOn (h.map Accepted.line) box.stop a →
    a < box.start → x.path <+: box.parent → x.placed.formula.holds M v, ?_, ?_, ?_⟩
  · intro v hv a x hx ha _ hpath
    exact hv a x hx (box.restsOn_of_last hh hj hparent hx ha hpath)
  · intro v hv hfirst
    rw [box.formula_last]
    refine htrue v fun a x hx ha => ?_
    rcases box.restsOn_last hh hx ha with ⟨rfl, hassumes⟩ | ⟨hlt, hpath⟩
    · rw [box.first_eq, Option.some.injEq] at hx
      rw [← hx, ← box.formula_first]
      exact hfirst hassumes
    · exact hv a x hx ha hlt hpath
  · intro z hz hfresh v d hv a x hx ha hlt hpath
    have hnot := box.fresh hfresh z hz a x hlt hx hpath
    exact (Formula.holds_update_of_not_occurs hnot d).mpr (hv a x hx ha hlt hpath)

/-- Everything a line cites may be relied on, if all earlier lines follow from
what they rest on. -/
theorem History.backed {M : Model.{u}} (hh : History options h s) {j : Nat}
    {t : Accepted options} (hj : h[j]? = some t)
    (htrue : ∀ k < j, ∀ x, h[k]? = some x → ∀ v, Grounds M h k v → x.placed.formula.holds M v) :
    t.context.Backed M (Grounds M h j) where
  formula := by
    intro index f hc v hv
    obtain ⟨-, i, u, -, hij, hi, -, hpath, rfl⟩ := hh.exists_of_cites hj hc
    refine htrue i hij u hi v fun a x hx ha => hv a x hx ?_
    exact hh.restsOn_of_isPrefix hi hj (Nat.le_of_lt hij) hpath ha
  subproof := by
    intro index b hc
    obtain ⟨box, hparent, -, -⟩ := hh.exists_box hj hc
    exact box.backed hh hj hparent (htrue box.stop box.stop_lt box.last box.last_eq)

/-- **Every accepted line is true wherever all that it rests on is true**, if
up to it no flag is free in an existential formula that is eliminated. -/
theorem History.holds {M : Model.{u}} (hh : History options h s) :
    ∀ (j : Nat) (t : Accepted options), h[j]? = some t →
      (∀ k ≤ j, ∀ x, h[k]? = some x → x.placed.rule = .exElim → x.context.FlagApart) →
      ∀ v, Grounds M h j v → t.placed.formula.holds M v := by
  intro j
  induction j using Nat.strongRecOn with
  | ind j ih =>
      intro t hj hapart v hv
      have hself : RestsOn (h.map Accepted.line) j j → t.placed.formula.holds M v := hv j t hj
      rw [hh.restsOn_iff hj] at hself
      -- A premiss or an assumption is among its own grounds; the rest was inferred.
      by_cases hpremiss : t.placed.rule = .premiss
      · exact hself ⟨t, hj, Nat.le_refl j, Or.inl hpremiss⟩
      · by_cases hassumption : t.placed.rule = .assumption
        · exact hself ⟨t, hj, Nat.le_refl j, Or.inr ⟨hassumption, List.prefix_refl _⟩⟩
        · have hbacked : t.context.Backed M (Grounds M h j) := by
            refine hh.backed hj fun k hk x hx => ih k hk x hx fun k' hk' => ?_
            exact hapart k' (by omega)
          exact Rule.holds_of_licenses hpremiss hassumption hbacked
            (hapart j (Nat.le_refl j) t hj) t.licenses hv

end ProofState

/-! ## §2. The condition on existential formulas. -/

open ProofState (Accepted History Box)

/-- Where the line stands that a citation starts with. -/
def citedPosition? (lines : List ProofLine) (line : ProofLine) (index : Nat) : Option Nat :=
  match line.citations[index]? with
  | some (some cited) => lines.findIdx? fun l => l.number = cited.leading
  | _ => none

namespace VerifiedProof

/-- The variable that line `i` flags is not free in the formula at `k`. -/
def FlagApartAt (proof : VerifiedProof) (lines : List ProofLine) (k i : Nat) : Prop :=
  ∀ f ∈ proof.lines[k]?, ∀ l ∈ lines[i]?, ∀ z ∈ l.flag, f.2.isFree z = false

instance (proof : VerifiedProof) (lines : List ProofLine) (k i : Nat) :
    Decidable (proof.FlagApartAt lines k i) :=
  inferInstanceAs (Decidable
    (∀ f ∈ proof.lines[k]?, ∀ l ∈ lines[i]?, ∀ z ∈ l.flag, f.2.isFree z = false))

/-- The flag of the subproof that a line cites second is not free in the
formula that it cites first. -/
def FlagApart (proof : VerifiedProof) (lines : List ProofLine) (line : ProofLine) : Prop :=
  ∀ k ∈ citedPosition? lines line 0, ∀ i ∈ citedPosition? lines line 1,
    proof.FlagApartAt lines k i

/-- The same, asked only if the formula comes after the first line of the
subproof. -/
def FlagApartIfLate (proof : VerifiedProof) (lines : List ProofLine) (line : ProofLine) : Prop :=
  ∀ k ∈ citedPosition? lines line 0, ∀ i ∈ citedPosition? lines line 1,
    i < k → proof.FlagApartAt lines k i

instance (proof : VerifiedProof) (lines : List ProofLine) (line : ProofLine) :
    Decidable (proof.FlagApart lines line) :=
  inferInstanceAs (Decidable (∀ k ∈ citedPosition? lines line 0,
    ∀ i ∈ citedPosition? lines line 1, proof.FlagApartAt lines k i))

instance (proof : VerifiedProof) (lines : List ProofLine) (line : ProofLine) :
    Decidable (proof.FlagApartIfLate lines line) :=
  inferInstanceAs (Decidable (∀ k ∈ citedPosition? lines line 0,
    ∀ i ∈ citedPosition? lines line 1, i < k → proof.FlagApartAt lines k i))

theorem FlagApart.ifLate {proof : VerifiedProof} {lines : List ProofLine} {line : ProofLine}
    (h : proof.FlagApart lines line) : proof.FlagApartIfLate lines line :=
  fun k hk i hi _ => h k hk i hi

end VerifiedProof

namespace ProofState

variable {options : CheckOptions} {h : List (Accepted options)} {s : ProofState}

/-- In a history the cited position is that of the line with the cited
number. -/
theorem History.citedPosition?_eq (hh : History options h s) {i : Nat} {t u : Accepted options}
    {index : Nat} {cited : Citation} (hcited : t.line.citations[index]? = some (some cited))
    (hi : h[i]? = some u) (hnumber : u.line.number = cited.leading) :
    citedPosition? (h.map Accepted.line) t.line index = some i := by
  unfold citedPosition?
  rw [hcited]
  obtain ⟨hlt, hget⟩ := List.getElem?_eq_some_iff.mp hi
  rw [List.findIdx?_eq_some_iff_getElem]
  refine ⟨by rwa [List.length_map], by simp [hget, hnumber], fun k hk => ?_⟩
  intro hsame
  rw [List.getElem_map, decide_eq_true_eq, ← hnumber] at hsame
  have heq := hh.eq_of_number_eq (List.getElem?_eq_getElem (by omega)) hi hsame
  omega

/-- **A fresh flag is not free in a line that came before the subproof**, if
the citing line sees that line. -/
theorem Box.not_isFree_of_lt {j : Nat} {b : CitedSubproof} (box : Box h j b)
    (hh : History options h s) {t : Accepted options} (hj : h[j]? = some t)
    (hparent : box.parent <+: t.path) (hfresh : b.flagFresh = true) {z : Name}
    (hz : b.flag = some z) {k : Nat} {x : Accepted options} (hx : h[k]? = some x)
    (hk : k < box.start) (hpath : x.path <+: t.path) : x.placed.formula.isFree z = false := by
  have hseen := box.isPrefix_parent hh hj hparent hx hk hpath
  exact Formula.isFree_of_not_occurs (box.fresh hfresh z hz k x hk hx hseen)

/-- The condition on the text is what the elimination of `exists` needs. -/
theorem History.flagApart (hh : History options h s) {j : Nat} {t : Accepted options}
    (hj : h[j]? = some t) (hrule : t.placed.rule = .exElim)
    (hapart : VerifiedProof.FlagApartIfLate s.finish (h.map Accepted.line) t.line) :
    t.context.FlagApart := by
  intro f b z hf hb hz
  obtain ⟨cited, k, x, hcited, -, hx, hnumber, hpath, rfl⟩ := hh.exists_of_cites hj hf
  obtain ⟨box, hparent, houtside, hcitedBox⟩ := hh.exists_box hj hb
  -- The check found the flag fresh, so only a late formula can have it free.
  have hlicensed := t.licenses
  rw [hrule] at hlicensed
  obtain ⟨-, -, -, b', -, hb', -, -, hfresh, -⟩ := hlicensed
  have hsame : b' = b := Option.some.inj (hb'.symm.trans hb)
  rw [hsame] at hfresh
  have hk := hh.citedPosition?_eq hcited hx hnumber
  have hi := hh.citedPosition?_eq hcitedBox box.first_eq rfl
  have hlate := hapart k hk box.start hi
  rcases Nat.lt_trichotomy k box.start with hlt | heq | hgt
  · exact box.not_isFree_of_lt hh hj hparent hfresh hz hx hlt hpath
  · -- The first line of a closed subproof cannot be seen from outside.
    rw [heq, box.first_eq, Option.some.injEq] at hx
    rw [← hx] at hpath
    exact absurd hpath houtside
  · refine hlate hgt x.record (hh.lines_finish_getElem? hx) box.first.line
      (line_getElem? box.first_eq) z ?_
    rw [Option.mem_def, ← box.flag_eq]
    exact hz

end ProofState

/-! ## §3. Accepted texts. -/

namespace VerifiedProof

/-- All that line `j` rests on is true. -/
def Grounds (M : Model.{u}) (proof : VerifiedProof) (lines : List ProofLine) (j : Nat)
    (v : M.Assignment) : Prop :=
  ∀ i, RestsOn lines j i → ∀ g ∈ proof.lines[i]?, g.2.holds M v

/-- All premisses that come no later than line `j` are true. -/
def Premisses (M : Model.{u}) (proof : VerifiedProof) (lines : List ProofLine) (j : Nat)
    (v : M.Assignment) : Prop :=
  ∀ i ≤ j, ∀ l ∈ lines[i]?, l.ruleText = Rule.premiss.name → ∀ g ∈ proof.lines[i]?, g.2.holds M v

/-- Line `j` is verified, and its formula is true wherever all that the line
rests on is true. -/
def Follows (proof : VerifiedProof) (lines : List ProofLine) (j : Nat) : Prop :=
  ∃ line ∈ lines[j]?, ∃ f, proof.lines[j]? = some (line.number, f)
    ∧ ∀ (M : Model.{u}) (v : M.Assignment), proof.Grounds M lines j v → f.holds M v

/-- Line `j` is verified, and its formula is true wherever the premisses are. -/
def FollowsFromPremisses (proof : VerifiedProof) (lines : List ProofLine) (j : Nat) : Prop :=
  ∃ line ∈ lines[j]?, ∃ f, proof.lines[j]? = some (line.number, f)
    ∧ ∀ (M : Model.{u}) (v : M.Assignment), proof.Premisses M lines j v → f.holds M v

end VerifiedProof

namespace ProofState.History

variable {options : CheckOptions} {h : List (Accepted options)} {s : ProofState}

/-- A line follows if no late existential formula up to it has a flag free. -/
theorem follows (hh : History options h s) {j : Nat} {t : Accepted options}
    (hj : h[j]? = some t)
    (hlate : ∀ k ≤ j, ∀ line ∈ (h.map Accepted.line)[k]?, line.ruleText = Rule.exElim.name →
      VerifiedProof.FlagApartIfLate s.finish (h.map Accepted.line) line) :
    VerifiedProof.Follows.{u} s.finish (h.map Accepted.line) j := by
  refine ⟨t.line, line_getElem? hj, t.placed.formula, hh.lines_finish_getElem? hj,
    fun M v hv => ?_⟩
  refine hh.holds j t hj (fun k hk x hx hrule => ?_) v fun a x hx ha => ?_
  · exact hh.flagApart hx hrule
      (hlate k hk x.line (line_getElem? hx) (x.ruleText_eq_iff.mpr hrule))
  · exact hv a ha x.record (hh.lines_finish_getElem? hx)

/-- Outside every subproof a line that follows at all follows from the
premisses. -/
theorem followsFromPremisses (hh : History options h s) {j : Nat} {t : Accepted options}
    (hj : h[j]? = some t) (hdepth : t.line.depth = 0)
    (hfollows : VerifiedProof.Follows.{u} s.finish (h.map Accepted.line) j) :
    VerifiedProof.FollowsFromPremisses.{u} s.finish (h.map Accepted.line) j := by
  obtain ⟨line, hline, f, hf, htrue⟩ := hfollows
  refine ⟨line, hline, f, hf, fun M v hv => htrue M v fun i hi g hg => ?_⟩
  rw [Option.mem_def, hh.lines_finish, List.getElem?_map, Option.map_eq_some_iff] at hg
  obtain ⟨x, hx, rfl⟩ := hg
  obtain ⟨hrule, hle⟩ := hh.premiss_of_restsOn hj hx hdepth hi
  exact hv i hle x.line (line_getElem? hx) (x.ruleText_eq_iff.mpr hrule) x.record
    (hh.lines_finish_getElem? hx)

end ProofState.History

/-- A line of an accepted text follows if no late existential formula up to it
has a flag free. -/
theorem follows_of_flagApartIfLate {options : CheckOptions} {text : String}
    {proof : VerifiedProof} (h : checkSource options text = .ok proof) {j : Nat}
    (hj : j < proof.length)
    (hlate : ∀ k ≤ j, ∀ line ∈ (proofLines text)[k]?, line.ruleText = Rule.exElim.name →
      proof.FlagApartIfLate (proofLines text) line) :
    proof.Follows.{u} (proofLines text) j := by
  obtain ⟨steps, s, hh, -, hlines, rfl⟩ := exists_history h
  have hlt : j < steps.length := hh.length_finish ▸ hj
  rw [← hlines] at hlate ⊢
  exact hh.follows (List.getElem?_eq_getElem hlt) hlate

/-- A line outside every subproof that follows at all follows from the
premisses. -/
theorem followsFromPremisses_of_follows {options : CheckOptions} {text : String}
    {proof : VerifiedProof} (h : checkSource options text = .ok proof) {j : Nat}
    {line : ProofLine} (hline : (proofLines text)[j]? = some line) (hdepth : line.depth = 0)
    (hfollows : proof.Follows.{u} (proofLines text) j) :
    proof.FollowsFromPremisses.{u} (proofLines text) j := by
  obtain ⟨steps, s, hh, -, hlines, rfl⟩ := exists_history h
  rw [← hlines] at hline hfollows ⊢
  rw [List.getElem?_map, Option.map_eq_some_iff] at hline
  obtain ⟨t, hj, rfl⟩ := hline
  exact hh.followsFromPremisses hj hdepth hfollows

/-- **Soundness of the checker.**  If no line of an accepted text eliminates an
existential formula in which the flag is free, every line is true wherever the
premisses up to it and the assumptions around it are, and a line outside every
subproof wherever the premisses up to it are. -/
theorem checkSource_sound {options : CheckOptions} {text : String} {proof : VerifiedProof}
    (h : checkSource options text = .ok proof)
    (hapart : ∀ line ∈ proofLines text, line.ruleText = Rule.exElim.name →
      proof.FlagApart (proofLines text) line) :
    ∀ j < proof.length, proof.Follows.{u} (proofLines text) j
      ∧ ∀ line ∈ (proofLines text)[j]?, line.depth = 0 →
        proof.FollowsFromPremisses.{u} (proofLines text) j := by
  intro j hj
  have hfollows : proof.Follows.{u} (proofLines text) j := by
    refine follows_of_flagApartIfLate h hj fun k _ line hline hrule => ?_
    exact (hapart line (List.mem_of_getElem? hline) hrule).ifLate
  exact ⟨hfollows, fun line hline hdepth =>
    followsFromPremisses_of_follows h hline hdepth hfollows⟩

/-- A proof that renames the variable of an existential formula. -/
def renamingText : String :=
  "1. exists(x) P(x) -premiss :\n2. | z P(z) -assumption :\n3. | exists(y) P(y) E-i : 2\n"
    ++ "4. exists(y) P(y) E-e : 1, 2-3"

/-- Its lines. -/
def renamingProof : VerifiedProof :=
  ⟨[(4, .ex "y" (.atom "P" ["y"])), (3, .ex "y" (.atom "P" ["y"])), (2, .atom "P" ["z"]),
    (1, .ex "x" (.atom "P" ["x"]))], [1, 2, 3, 4]⟩

theorem checkSource_sound_renaming :
    renamingProof.FollowsFromPremisses.{0} (proofLines renamingText) 3 := by
  obtain ⟨haccepted, hapart, hdepth⟩ : checkSource {} renamingText = .ok renamingProof
      ∧ (∀ line ∈ proofLines renamingText, line.ruleText = Rule.exElim.name →
        renamingProof.FlagApart (proofLines renamingText) line)
      ∧ (proofLines renamingText)[3]?.map ProofLine.depth = some 0 := by decide +kernel
  obtain ⟨line, hline, hdepth⟩ := Option.map_eq_some_iff.mp hdepth
  exact (checkSource_sound haccepted hapart 3 (by decide)).2 line hline hdepth

/-! ## §4. Existential formulas that come late. -/

/-- **The elimination of `exists` concludes a consequence**, unless an
existential formula that was put down after the subproof was opened has the
flag of that subproof free. -/
theorem exElim_follows {options : CheckOptions} {text : String} {proof : VerifiedProof}
    (h : checkSource options text = .ok proof) {j : Nat} (hj : j < proof.length)
    (hlate : ∀ k ≤ j, ∀ line ∈ (proofLines text)[k]?, line.ruleText = Rule.exElim.name →
      proof.FlagApartIfLate (proofLines text) line) :
    ∀ line ∈ (proofLines text)[j]?, line.ruleText = Rule.exElim.name →
      proof.Follows.{u} (proofLines text) j :=
  fun _ _ _ => follows_of_flagApartIfLate h hj hlate

/-- A subproof that flags `z`, and an existential formula put down after it. -/
def lateText (term : Name) : String :=
  "1. | z R(z,z) -assumption :\n2. | exists(x) R(x,x) E-i : 1\n3. exists(x) R(x," ++ term
    ++ ") -premiss :\n4. exists(x) R(x,x) E-e : 3, 1-2"

/-- The lines of such a text. -/
def lateProof (term : Name) : VerifiedProof :=
  ⟨[(4, .ex "x" (.atom "R" ["x", "x"])), (3, .ex "x" (.atom "R" ["x", term])),
    (2, .ex "x" (.atom "R" ["x", "x"])), (1, .atom "R" ["z", "z"])], [1, 2, 3, 4]⟩

/-- With `z` not free in it, the existential formula may come late. -/
theorem exElim_follows_late : (lateProof "x").Follows.{0} (proofLines (lateText "x")) 3 := by
  obtain ⟨haccepted, hlate, hrule⟩ : checkSource {} (lateText "x") = .ok (lateProof "x")
      ∧ (∀ line ∈ proofLines (lateText "x"), line.ruleText = Rule.exElim.name →
        (lateProof "x").FlagApartIfLate (proofLines (lateText "x")) line)
      ∧ (proofLines (lateText "x"))[3]?.map ProofLine.ruleText = some Rule.exElim.name := by
    decide +kernel
  obtain ⟨line, hline, hrule⟩ := Option.map_eq_some_iff.mp hrule
  exact exElim_follows haccepted (by decide)
    (fun k _ l hl => hlate l (List.mem_of_getElem? hl)) line hline hrule

/-- Two objects, of which the first bears `R` to the second and nothing else
does. -/
def oneWay : Model.{0} where
  Object := Bool
  inhabited := ⟨true⟩
  relation _ objects := objects = [true, false]

/-- **With `z` free in it, a late existential formula proves too much**: from
`exists(x) R(x,z)` the proof arrives at `exists(x) R(x,x)`. -/
theorem not_exElim_follows :
    ¬ ∀ (options : CheckOptions) (text : String) (proof : VerifiedProof),
      checkSource options text = .ok proof → ∀ j < proof.length,
        ∀ line ∈ (proofLines text)[j]?, line.ruleText = Rule.exElim.name →
          proof.Follows.{0} (proofLines text) j := by
  intro hall
  obtain ⟨haccepted, hrules, hdepth⟩ : checkSource {} (lateText "z") = .ok (lateProof "z")
      ∧ (proofLines (lateText "z")).map ProofLine.ruleText
        = [Rule.assumption.name, Rule.exIntro.name, Rule.premiss.name, Rule.exElim.name]
      ∧ (proofLines (lateText "z"))[3]?.map ProofLine.depth = some 0 := by decide +kernel
  have hruleAt : ∀ {i : Nat} {l : ProofLine}, (proofLines (lateText "z"))[i]? = some l →
      [Rule.assumption.name, Rule.exIntro.name, Rule.premiss.name, Rule.exElim.name][i]?
        = some l.ruleText := by
    intro i l hl
    rw [← hrules, List.getElem?_map, hl, Option.map_some]
  obtain ⟨line, hline, hdepth⟩ := Option.map_eq_some_iff.mp hdepth
  have hfollows := hall {} _ _ haccepted 3 (by decide) line hline
    (Option.some.inj (hruleAt hline)).symm
  obtain ⟨line', -, f, hf, htrue⟩ := followsFromPremisses_of_follows haccepted hline hdepth hfollows
  -- Let `z` be the second object: the premiss is true and the last line is not.
  have hpremisses : (lateProof "z").Premisses oneWay (proofLines (lateText "z")) 3
      fun _ => false := by
    intro i hi l hl hpremiss g hg
    have hname := hruleAt hl
    rw [hpremiss] at hname
    have hi2 : i = 2 := by
      revert hname
      interval_cases i <;> decide
    rw [hi2] at hg
    rw [← Option.some.inj hg]
    exact ⟨true, rfl⟩
  have hlast := htrue oneWay (fun _ => false) hpremisses
  rw [← (Prod.mk.inj (Option.some.inj hf)).2] at hlast
  obtain ⟨object, hobject⟩ := hlast
  have hnot : ∀ b : Bool, [b, b] ≠ [true, false] := by decide
  exact hnot object hobject

end NaturalDeduction
