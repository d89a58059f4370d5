/-
  NaturalDeduction.Proofs.Hypotheses
  ──────────────────────────────────
  **WHAT A LINE RESTS ON**: the premisses up to it and the assumptions of the
  subproofs around it.

  A line rests on all that the lines it can see rest on
  (`restsOn_of_isPrefix`), and on all that the last line of a closed subproof
  rests on except for the assumption of that subproof (`Box.restsOn_last`,
  `Box.restsOn_of_last`).  What remains of the latter was visible when the
  subproof was opened, so a fresh flag occurs in none of it.
-/
import NaturalDeduction.Proofs.History
import NaturalDeduction.Proofs.RuleTable

namespace NaturalDeduction

open ProofState (Accepted History)
open Scopes (Visit Walk)

/-- Does line `j` rest on line `i`: on a premiss that comes no later, or on the
assumption of a subproof around it? -/
def RestsOn (lines : List ProofLine) (j i : Nat) : Prop :=
  ∃ line ∈ lines[i]?,
    (line.ruleText = Rule.premiss.name ∧ i ≤ j)
      ∨ (line.ruleText = Rule.assumption.name
        ∧ Entry.Encloses (lines.map ProofLine.entry) i j)

namespace ProofState

namespace Accepted

variable {options : CheckOptions}

/-- What the rule of an accepted line looked at. -/
def context (t : Accepted options) : Context := t.placed.state.context t.line t.placed.formula

theorem licenses (t : Accepted options) : t.placed.rule.Licenses t.context :=
  Rule.licenses_of_check t.check_eq

theorem ruleText_eq_iff (t : Accepted options) {rule : Rule} :
    t.line.ruleText = rule.name ↔ t.placed.rule = rule := by
  rw [t.ruleText_eq]
  constructor
  · intro heq
    rw [← Option.some.injEq, ← Rule.ofName?_name, ← Rule.ofName?_name rule, heq]
  · intro heq
    rw [heq]

/-- An assumption starts a subproof. -/
theorem opens_of_assumption (t : Accepted options) (h : t.placed.rule = .assumption) :
    t.line.entry.opens = true := by
  have hrule := t.ruleText_eq_iff.mpr h
  simp [Entry.opens, ProofLine.entry, hrule]

/-- A line that starts a subproof stands inside it. -/
theorem path_ne_nil (t : Accepted options) (h : t.line.entry.opens = true) : t.path ≠ [] := by
  intro hnil
  have hlength : t.path.length = t.line.entry.depth := Scopes.enter_path_length t.enter_eq
  rw [hnil, List.length_nil] at hlength
  rcases Scopes.enter_eq_ok t.enter_eq with ⟨-, hpos, -⟩ | ⟨hopens, -⟩
  · omega
  · rw [h] at hopens
    exact Bool.noConfusion hopens

end Accepted

namespace History

variable {options : CheckOptions} {h : List (Accepted options)} {s : ProofState}

/-! ## §1. What a line of a history can see. -/

theorem visit_getElem? {i : Nat} {t : Accepted options} (hi : h[i]? = some t) :
    (h.map Accepted.visit)[i]? = some t.visit := by
  rw [List.getElem?_map, hi, Option.map_some]

theorem line_getElem? {i : Nat} {t : Accepted options} (hi : h[i]? = some t) :
    (h.map Accepted.line)[i]? = some t.line := by
  rw [List.getElem?_map, hi, Option.map_some]

theorem lines_finish_getElem? (hh : History options h s) {i : Nat} {t : Accepted options}
    (hi : h[i]? = some t) : s.finish.lines[i]? = some t.record := by
  rw [hh.lines_finish, List.getElem?_map, hi, Option.map_some]

theorem length_finish (hh : History options h s) : s.finish.length = h.length := by
  show s.order.length = h.length
  rw [hh.order_eq, List.length_map]

theorem exists_of_visit_getElem? {i : Nat} {v : Visit}
    (hi : (h.map Accepted.visit)[i]? = some v) : ∃ t, h[i]? = some t ∧ t.visit = v := by
  rw [List.getElem?_map, Option.map_eq_some_iff] at hi
  exact hi

/-- Lines with one number are one line. -/
theorem eq_of_number_eq (hh : History options h s) {i j : Nat} {t u : Accepted options}
    (hi : h[i]? = some t) (hj : h[j]? = some u) (hn : t.line.number = u.line.number) : i = j :=
  index_eq_of_number hh.nodup hi hj hn

/-- **The formula on record at a number is that of the line with this
number.** -/
theorem formula_eq (hh : History options h s) {i : Nat} {t : Accepted options}
    (hi : h[i]? = some t) {f : Formula} (hf : s.formula? t.line.number = some f) :
    t.placed.formula = f := by
  have hmem := mem_of_lookup hf
  rw [hh.formulas_eq, List.mem_reverse] at hmem
  obtain ⟨u, hu, hrecord⟩ := List.mem_map.mp hmem
  obtain ⟨j, hj⟩ := List.mem_iff_getElem?.mp hu
  obtain ⟨hnumber, hformula⟩ := Prod.mk.inj hrecord
  have hij := hh.eq_of_number_eq hi hj hnumber.symm
  rw [hij, hj, Option.some.injEq] at hi
  rw [← hi]
  exact hformula

/-- The state in which a line of a history is judged: the lines before it are
on record. -/
theorem placed_formula? (t : Accepted options) (n : Nat) :
    t.placed.state.formula? n = t.before.formula? n := by
  rw [t.placed_eq]
  rfl

/-- **A cited formula is that of an earlier line**, whose path the citing line
extends. -/
theorem exists_of_cites (hh : History options h s) {j : Nat} {t : Accepted options}
    (hj : h[j]? = some t) {index : Nat} {f : Formula} (hc : t.context.Cites index f) :
    ∃ cited i u, t.line.citations[index]? = some (some cited) ∧ i < j ∧ h[i]? = some u
      ∧ u.line.number = cited.leading ∧ u.path <+: t.path ∧ u.placed.formula = f := by
  obtain ⟨cited, hcited, hvisible, hf⟩ := cites_iff.mp hc
  have hbefore := hh.take hj
  obtain ⟨i, v, hi, hnumber, hpath⟩ := hbefore.walk.exists_of_isVisible t.enter_eq hvisible
  obtain ⟨u, hu, rfl⟩ := exists_of_visit_getElem? hi
  have hlt := (List.getElem?_eq_some_iff.mp hu).1
  rw [List.length_take] at hlt
  rw [placed_formula?, ← hnumber] at hf
  refine ⟨cited, i, u, hcited, by omega, ?_, hnumber, hpath, hbefore.formula_eq hu hf⟩
  rwa [List.getElem?_take_of_lt (by omega)] at hu

/-! ## §2. Where the lines of a history stand. -/

theorem length_path (hh : History options h s) {i : Nat} {t : Accepted options}
    (hi : h[i]? = some t) : t.path.length = t.line.depth :=
  hh.walk.length_path t.visit (List.mem_map_of_mem (List.mem_of_getElem? hi))

/-- One path extends another exactly if the place of the earlier line lasts. -/
theorem isPrefix_iff_lasts (hh : History options h s) {i j : Nat} {t u : Accepted options}
    (hi : h[i]? = some u) (hj : h[j]? = some t) (hij : i ≤ j) :
    u.path <+: t.path ↔ Entry.Lasts ((h.map Accepted.line).map ProofLine.entry) i j := by
  have hlasts := hh.walk.isPrefix_iff_lasts (visit_getElem? hi) (visit_getElem? hj) hij
  rw [List.map_map] at hlasts ⊢
  exact hlasts

/-- While a place lasts, no line is less deep, and none starts a subproof at
the same depth. -/
theorem depth_of_isPrefix (hh : History options h s) {i k j : Nat} {t u x : Accepted options}
    (hi : h[i]? = some u) (hk : h[k]? = some x) (hj : h[j]? = some t) (hik : i < k) (hkj : k ≤ j)
    (hpre : u.path <+: t.path) :
    u.path.length ≤ x.path.length
      ∧ (x.path.length = u.path.length → x.line.entry.opens = false) := by
  have hlasts := (hh.isPrefix_iff_lasts hi hj (by omega)).mp hpre
  have hentry : ∀ {n : Nat} {y : Accepted options}, h[n]? = some y →
      ((h.map Accepted.line).map ProofLine.entry)[n]? = some y.line.entry := by
    intro n y hn
    rw [List.getElem?_map, line_getElem? hn, Option.map_some]
  rw [hh.length_path hi, hh.length_path hk]
  exact (Entry.lasts_iff (hentry hi)).mp hlasts k x.line.entry hik hkj (hentry hk)

/-- A line that starts a subproof comes before every other line on its path. -/
theorem le_of_opens (hh : History options h s) {i m : Nat} {u w : Accepted options}
    (hi : h[i]? = some u) (hm : h[m]? = some w) (hopens : u.line.entry.opens = true)
    (hpath : w.path = u.path) : i ≤ m := by
  by_contra hlt
  have hpre : w.path <+: u.path := hpath ▸ List.prefix_refl _
  have hclosed := (hh.depth_of_isPrefix hm hi hi (by omega) (Nat.le_refl i) hpre).2
  rw [hclosed (by rw [hpath])] at hopens
  exact Bool.noConfusion hopens

/-- A premiss stands outside every subproof. -/
theorem path_of_premiss (hh : History options h s) {i : Nat} {t : Accepted options}
    (hi : h[i]? = some t) (hrule : t.placed.rule = .premiss) : t.path = [] := by
  have hlicensed := t.licenses
  rw [hrule] at hlicensed
  rw [← List.length_eq_zero_iff, hh.length_path hi]
  exact hlicensed

/-- **What a line rests on, by paths**: the premisses up to it, and the
assumptions on whose paths it stands. -/
theorem restsOn_iff (hh : History options h s) {j a : Nat} {t : Accepted options}
    (hj : h[j]? = some t) :
    RestsOn (h.map Accepted.line) j a ↔ ∃ x, h[a]? = some x ∧ a ≤ j
      ∧ (x.placed.rule = .premiss ∨ (x.placed.rule = .assumption ∧ x.path <+: t.path)) := by
  constructor
  · rintro ⟨line, hline, hrests⟩
    rw [Option.mem_def, List.getElem?_map, Option.map_eq_some_iff] at hline
    obtain ⟨x, hx, rfl⟩ := hline
    rw [x.ruleText_eq_iff, x.ruleText_eq_iff] at hrests
    rcases hrests with ⟨hrule, hle⟩ | ⟨hrule, hle, -, hlasts⟩
    · exact ⟨x, hx, hle, Or.inl hrule⟩
    · exact ⟨x, hx, hle, Or.inr ⟨hrule, (hh.isPrefix_iff_lasts hx hj hle).mpr hlasts⟩⟩
  · rintro ⟨x, hx, hle, hrests⟩
    refine ⟨x.line, line_getElem? hx, ?_⟩
    rw [x.ruleText_eq_iff, x.ruleText_eq_iff]
    rcases hrests with hrule | ⟨hrule, hpre⟩
    · exact Or.inl ⟨hrule, hle⟩
    · have hlasts := (hh.isPrefix_iff_lasts hx hj hle).mp hpre
      refine Or.inr ⟨hrule, hle, ⟨x.line.entry, ?_, x.opens_of_assumption hrule⟩, hlasts⟩
      rw [List.getElem?_map, line_getElem? hx, Option.map_some, Option.mem_def]

/-- A line rests on all that the lines it can see rest on. -/
theorem restsOn_of_isPrefix (hh : History options h s) {i j a : Nat} {t u : Accepted options}
    (hi : h[i]? = some u) (hj : h[j]? = some t) (hij : i ≤ j) (hpre : u.path <+: t.path)
    (ha : RestsOn (h.map Accepted.line) i a) : RestsOn (h.map Accepted.line) j a := by
  obtain ⟨x, hx, hle, hrests⟩ := (hh.restsOn_iff hi).mp ha
  refine (hh.restsOn_iff hj).mpr ⟨x, hx, by omega, ?_⟩
  rcases hrests with hrule | ⟨hrule, hpath⟩
  · exact Or.inl hrule
  · exact Or.inr ⟨hrule, hpath.trans hpre⟩

/-- Outside every subproof a line rests on premisses only. -/
theorem premiss_of_restsOn (hh : History options h s) {j a : Nat} {t x : Accepted options}
    (hj : h[j]? = some t) (hx : h[a]? = some x) (hdepth : t.line.depth = 0)
    (ha : RestsOn (h.map Accepted.line) j a) : x.placed.rule = .premiss ∧ a ≤ j := by
  obtain ⟨x', hx', hle, hrests⟩ := (hh.restsOn_iff hj).mp ha
  rw [hx, Option.some.injEq] at hx'
  rw [hx']
  rcases hrests with hrule | ⟨hrule, hpath⟩
  · exact ⟨hrule, hle⟩
  · -- An assumption starts a subproof, and no subproof is around the line.
    have hempty : t.path = [] := by rw [← List.length_eq_zero_iff, hh.length_path hj, hdepth]
    rw [hempty, List.prefix_nil] at hpath
    exact absurd hpath (x'.path_ne_nil (x'.opens_of_assumption hrule))

end History

/-! ## §3. Closed subproofs. -/

/-- A closed subproof as line `j` of a history cites it: its first and last
lines, and where they stand. -/
structure Box {options : CheckOptions} (h : List (Accepted options)) (j : Nat)
    (b : CitedSubproof) where
  start : Nat
  stop : Nat
  first : Accepted options
  last : Accepted options
  parent : Path
  id : Nat
  start_lt : start < j
  stop_lt : stop < j
  first_eq : h[start]? = some first
  last_eq : h[stop]? = some last
  opens : first.line.entry.opens = true
  path_first : first.path = parent ++ [id]
  path_last : last.path = parent ++ [id]
  formula_first : b.first = first.placed.formula
  formula_last : b.last = last.placed.formula
  flag_eq : b.flag = first.line.flag
  assumes_eq : b.assumes = first.line.entry.assumes
  /-- A fresh flag occurs in no line that could be seen from where the subproof
  was opened. -/
  fresh : b.flagFresh = true → ∀ z, b.flag = some z → ∀ (k : Nat) (x : Accepted options),
    k < start → h[k]? = some x → x.path <+: parent → x.placed.formula.occurs z = false

namespace History

variable {options : CheckOptions} {h : List (Accepted options)} {s : ProofState}

/-- The formula of a line is on record at its number. -/
theorem formula?_eq (hh : History options h s) {i : Nat} {t : Accepted options}
    (hi : h[i]? = some t) : s.formula? t.line.number = some t.placed.formula := by
  refine lookup_eq_some_of_mem hh.inStep.nodup_formulas ?_
  rw [hh.formulas_eq, List.mem_reverse]
  exact List.mem_map_of_mem (List.mem_of_getElem? hi)

/-- **A cited subproof is a box of the history** inside the subproofs around
the citing line. -/
theorem exists_box (hh : History options h s) {j : Nat} {t : Accepted options}
    (hj : h[j]? = some t) {index : Nat} {b : CitedSubproof}
    (hc : t.context.CitesSubproof index b) :
    ∃ box : Box h j b, box.parent <+: t.path ∧ ¬ box.first.path <+: t.path
      ∧ t.line.citations[index]?
        = some (some (.subproof box.first.line.number box.last.line.number)) := by
  obtain ⟨first, last, subproof, hcited, hclosed, hf, hg, hflag, hassumes, hfresh⟩ :=
    citesSubproof_iff.mp hc
  have hbefore := hh.take hj
  have hnodup : ((h.take j).map Accepted.visit |>.map fun v => v.entry.number).Nodup := by
    rw [List.map_map]
    exact hbefore.nodup
  -- The numbers on record lead back to the lines of the history.
  obtain ⟨i, v, id, ho, rfl, hlast, hparent, houtside⟩ :=
    hbefore.walk.exists_of_closed? hnodup t.enter_eq hclosed
  obtain ⟨m, w, hm, hpath, hnumber, -⟩ := ho.last
  obtain rfl : w.entry.number = last := Option.some.inj (hnumber.symm.trans hlast)
  obtain ⟨u, hu, rfl⟩ := exists_of_visit_getElem? ho.visit
  obtain ⟨w, hw, rfl⟩ := exists_of_visit_getElem? hm
  rw [placed_formula?] at hf hg
  have hi : i < j := by
    have hlt := (List.getElem?_eq_some_iff.mp hu).1
    rw [List.length_take] at hlt
    omega
  have hmj : m < j := by
    have hlt := (List.getElem?_eq_some_iff.mp hw).1
    rw [List.length_take] at hlt
    omega
  have hu' : h[i]? = some u := by rwa [List.getElem?_take_of_lt hi] at hu
  have hw' : h[m]? = some w := by rwa [List.getElem?_take_of_lt hmj] at hw
  have hpathw : w.path = subproof.parent ++ [id] := hpath.trans ho.path
  refine ⟨⟨i, m, u, w, subproof.parent, id, hi, hmj, hu', hw', ho.opens, ho.path, hpathw,
    (hbefore.formula_eq hu hf).symm, (hbefore.formula_eq hw hg).symm, hflag.trans ho.flag,
    hassumes.trans ho.assumes, ?_⟩, hparent, houtside, hcited⟩
  -- Known when the subproof was opened were the formulas of the lines before it.
  intro hfresh' z hz k x hk hx hpre
  have hx' : (h.take i)[k]? = some x := by rwa [List.getElem?_take_of_lt hk]
  have hx'' : (h.take j)[k]? = some x := by rwa [List.getElem?_take_of_lt (by omega)]
  rw [hflag, ho.flag] at hz
  rw [hfresh] at hfresh'
  refine ho.fresh.mp hfresh' z hz x.visit ?_ hpre _ ((hh.take hu').formula?_eq hx')
  refine List.mem_iff_getElem?.mpr ⟨k, ?_⟩
  rw [List.getElem?_take_of_lt hk]
  exact visit_getElem? hx''

end History

namespace Box

variable {options : CheckOptions} {h : List (Accepted options)} {s : ProofState} {j : Nat}
  {b : CitedSubproof} (box : Box h j b)
include box

/-- **What the last line of a box rests on**: the assumption of the box, and
lines that could be seen when the box was opened. -/
theorem restsOn_last (hh : History options h s) {a : Nat} {x : Accepted options}
    (hx : h[a]? = some x) (ha : RestsOn (h.map Accepted.line) box.stop a) :
    (a = box.start ∧ b.assumes = true) ∨ (a < box.start ∧ x.path <+: box.parent) := by
  obtain ⟨x', hx', hle, hrests⟩ := (hh.restsOn_iff box.last_eq).mp ha
  rw [hx, Option.some.injEq] at hx'
  rw [← hx'] at hrests
  have hlonger : ¬ box.first.path.length ≤ box.parent.length := by
    rw [box.path_first, List.length_append, List.length_singleton]
    omega
  -- Whatever stands on the path of the parent came before the box was opened.
  have hout : x.path <+: box.parent → a < box.start ∧ x.path <+: box.parent := by
    intro hpre
    refine ⟨?_, hpre⟩
    by_contra hge
    rcases Nat.lt_or_eq_of_le (Nat.le_of_not_lt hge) with hlt | heq
    · have hpath : box.first.path <+: box.last.path :=
        (box.path_first.trans box.path_last.symm) ▸ List.prefix_refl _
      have hdeep := (hh.depth_of_isPrefix box.first_eq hx box.last_eq hlt hle hpath).1
      exact hlonger (Nat.le_trans hdeep hpre.length_le)
    · rw [← heq, box.first_eq, Option.some.injEq] at hx
      rw [← hx] at hpre
      exact hlonger hpre.length_le
  rcases hrests with hrule | ⟨hrule, hpath⟩
  · right
    refine hout ?_
    rw [hh.path_of_premiss hx hrule]
    exact List.nil_prefix
  · rw [box.path_last, List.prefix_concat_iff] at hpath
    rcases hpath with hself | hpre
    · -- The assumption starts a subproof on the path of the box, so it is its own.
      left
      rw [← box.path_first] at hself
      have hopens := x.opens_of_assumption hrule
      have hle' := hh.le_of_opens hx box.first_eq hopens hself.symm
      have hge' := hh.le_of_opens box.first_eq hx box.opens hself
      have heq : a = box.start := by omega
      refine ⟨heq, ?_⟩
      rw [heq, box.first_eq, Option.some.injEq] at hx
      rw [box.assumes_eq, hx]
      simp [ProofLine.entry, x.ruleText_eq_iff.mpr hrule]
    · exact Or.inr (hout hpre)

/-- All of it except for the assumption of the box, the citing line rests on
as well. -/
theorem restsOn_of_last (hh : History options h s) {t : Accepted options} (hj : h[j]? = some t)
    (hparent : box.parent <+: t.path) {a : Nat} {x : Accepted options} (hx : h[a]? = some x)
    (ha : RestsOn (h.map Accepted.line) box.stop a) (hpath : x.path <+: box.parent) :
    RestsOn (h.map Accepted.line) j a := by
  obtain ⟨x', hx', hle, hrests⟩ := (hh.restsOn_iff box.last_eq).mp ha
  rw [hx, Option.some.injEq] at hx'
  rw [← hx'] at hrests
  have hstop := box.stop_lt
  refine (hh.restsOn_iff hj).mpr ⟨x, hx, by omega, ?_⟩
  rcases hrests with hrule | ⟨hrule, -⟩
  · exact Or.inl hrule
  · exact Or.inr ⟨hrule, hpath.trans hparent⟩

/-- **A line that came before the box, and that the citing line sees, could be
seen when the box was opened.** -/
theorem isPrefix_parent (hh : History options h s) {t : Accepted options} (hj : h[j]? = some t)
    (hparent : box.parent <+: t.path) {k : Nat} {x : Accepted options} (hx : h[k]? = some x)
    (hk : k < box.start) (hpath : x.path <+: t.path) : x.path <+: box.parent := by
  have hlast := box.start_lt
  obtain ⟨hdeep, hsame⟩ := hh.depth_of_isPrefix hx box.first_eq hj hk (by omega) hpath
  rw [box.path_first, List.length_append, List.length_singleton] at hdeep hsame
  -- Had it the depth of the box, the box would have closed its place.
  have hne : box.parent.length + 1 ≠ x.path.length := by
    intro heq
    have hopens := box.opens
    rw [hsame heq] at hopens
    exact Bool.noConfusion hopens
  exact List.prefix_of_prefix_length_le hpath hparent (by omega)

end Box

end ProofState

end NaturalDeduction
