/-
  NaturalDeduction.Proofs.History
  ───────────────────────────────
  **THE HISTORY OF A CHECK**: the accepted lines in order, each with the state
  in which it was taken up.

  A check that goes through has such a history (`exists_history`), and every
  step of it went through all five tests (`place_eq_ok`).  A step writes to four
  records, one after the other: the formulas by number, the order of the lines,
  the number last used, and the places of the lines.  They stay in step
  (`InStep.step`, `InStep.runFrom`), and the history says what is in each of
  them.
-/
import NaturalDeduction.Proof.Source
import NaturalDeduction.Proofs.Walk

namespace NaturalDeduction

open Scopes (Visit Walk)

namespace ProofState

/-! ## §1. One line. -/

/-- **A line that was placed passed the first four tests**, and nothing but the
subproofs changed. -/
theorem place_eq_ok {options : CheckOptions} {s : ProofState} {line : ProofLine}
    {placed : Placed} (h : s.place options line = .ok placed) :
    checkOrder options s line = .ok () ∧ readFormula options line = .ok placed.formula
      ∧ Rule.ofName? line.ruleText = some placed.rule
      ∧ s.scopes.enter s.formula? line.entry = (.ok (), placed.state.scopes)
      ∧ placed.state = { s with scopes := placed.state.scopes } := by
  unfold place at h
  split at h
  · exact absurd h (by simp)
  · next horder =>
      split at h
      · exact absurd h (by simp)
      · next formula hformula =>
          split at h
          · exact absurd h (by simp)
          · next rule hrule =>
              split at h
              · exact absurd h (by simp)
              · next scopes henter =>
                  rw [Except.ok.injEq] at h
                  rw [← h]
                  exact ⟨horder, hformula, hrule, henter, rfl⟩

/-- The number of a line is out of order because it was used, or because it is not
greater than the last. -/
theorem cause_of_checkOrder {options : CheckOptions} {s : ProofState} {line : ProofLine}
    {cause : FailureCause} (h : checkOrder options s line = .error cause) :
    cause = .duplicate ∨ ∃ previous, cause = .lineOrder previous := by
  unfold checkOrder at h
  split at h
  · exact Or.inl (Except.error.inj h).symm
  · split at h
    · split at h
      · next previous _ =>
          split at h
          · exact Or.inr ⟨previous, (Except.error.inj h).symm⟩
          · exact absurd h (by simp)
      · exact absurd h (by simp)
    · exact absurd h (by simp)

/-- **A line that was not placed failed one of the first four tests**, and this is
what it is refused for. -/
theorem place_eq_error {options : CheckOptions} {s : ProofState} {line : ProofLine}
    {cause : FailureCause} {span : Span} (h : s.place options line = .error (cause, span)) :
    (checkOrder options s line = .error cause ∧ span = line.spans.line)
      ∨ (∃ e, readFormula options line = .error e ∧ cause = .unreadable e
          ∧ span = e.span.forward line.spans.formula.start)
      ∨ (Rule.ofName? line.ruleText = none ∧ cause = .unknownRule ∧ span = line.spans.rule)
      ∨ ∃ fault, (s.scopes.enter s.formula? line.entry).1 = .error fault
          ∧ cause = .misplaced fault ∧ span = line.spans.line := by
  unfold place at h
  split at h
  · next cause' horder =>
      obtain ⟨rfl, rfl⟩ := Prod.mk.inj (Except.error.inj h)
      exact Or.inl ⟨horder, rfl⟩
  · right
    split at h
    · next e he =>
        obtain ⟨rfl, rfl⟩ := Prod.mk.inj (Except.error.inj h)
        exact Or.inl ⟨e, he, rfl, rfl⟩
    · right
      split at h
      · next hrule =>
          obtain ⟨rfl, rfl⟩ := Prod.mk.inj (Except.error.inj h)
          exact Or.inl ⟨hrule, rfl, rfl⟩
      · right
        split at h
        · next fault scopes henter =>
            obtain ⟨rfl, rfl⟩ := Prod.mk.inj (Except.error.inj h)
            exact ⟨fault, by rw [henter], rfl, rfl⟩
        · exact absurd h (by simp)

/-- **A line that was refused was not placed, or does not keep its rule.** -/
theorem step_eq_error {options : CheckOptions} {s : ProofState} {line : ProofLine}
    {cause : FailureCause} {span : Span} (h : s.step options line = .error (cause, span)) :
    s.place options line = .error (cause, span)
      ∨ ∃ placed v, s.place options line = .ok placed
          ∧ placed.rule.check (placed.state.context line placed.formula) = .error v
          ∧ cause = .violation v
          ∧ span = if v.blamesCitation then line.spans.citations else line.spans.formula := by
  unfold step at h
  split at h
  · next e hplace =>
      left
      rw [hplace, Except.error.inj h]
  · next placed hplace =>
      right
      split at h
      · next v hviolation =>
          obtain ⟨rfl, rfl⟩ := Prod.mk.inj (Except.error.inj h)
          exact ⟨placed, v, hplace, hviolation, rfl, rfl⟩
      · exact absurd h (by simp)

/-- **A line that passed the first three tests is placed** exactly if it fits
the subproofs around it. -/
theorem place_of_read {options : CheckOptions} {s : ProofState} {line : ProofLine}
    {formula : Formula} {rule : Rule} (horder : checkOrder options s line = .ok ())
    (hread : readFormula options line = .ok formula)
    (hrule : Rule.ofName? line.ruleText = some rule) :
    s.place options line =
      match Scopes.fault? s.scopes.path.length line.entry with
      | some fault => .error (.misplaced fault, line.spans.line)
      | none =>
          .ok ⟨rule, formula, { s with scopes := s.scopes.entered s.formula? line.entry }⟩ := by
  unfold place
  rw [horder, hread, hrule]
  dsimp only
  cases hfault : Scopes.fault? s.scopes.path.length line.entry with
  | none => rw [Scopes.enter_of_fits hfault]
  | some fault =>
      have hrefused := Scopes.enter_of_fault hfault s.formula?
      cases henter : s.scopes.enter s.formula? line.entry with
      | mk result scopes =>
          rw [henter] at hrefused
          rw [show result = .error fault from hrefused]

/-- A line whose number is in order has a new number. -/
theorem formula?_eq_none_of_checkOrder {options : CheckOptions} {s : ProofState}
    {line : ProofLine} (h : checkOrder options s line = .ok ()) :
    s.formula? line.number = none := by
  unfold checkOrder at h
  split at h
  · exact absurd h (by simp)
  · next hnew => simpa using hnew

/-- An accepted line: the state before it, and the line as it was placed and
then found to keep its rule. -/
structure Accepted (options : CheckOptions) where
  before : ProofState
  line : ProofLine
  placed : Placed
  place_eq : before.place options line = .ok placed
  check_eq : placed.rule.check (placed.state.context line placed.formula) = .ok ()

namespace Accepted

variable {options : CheckOptions}

/-- The state behind an accepted line. -/
def after (t : Accepted options) : ProofState :=
  t.placed.state.accept t.line.number t.placed.formula

/-- The path on which an accepted line stands. -/
def path (t : Accepted options) : Path := t.placed.state.scopes.path

/-- An accepted line on its walk through the subproofs. -/
def visit (t : Accepted options) : Visit := ⟨t.line.entry, t.before.formula?, t.path⟩

/-- An accepted line with its formula, as it is put on record. -/
def record (t : Accepted options) : Nat × Formula := (t.line.number, t.placed.formula)

theorem enter_eq (t : Accepted options) :
    t.before.scopes.enter t.before.formula? t.line.entry
      = (.ok (), t.placed.state.scopes) := (place_eq_ok t.place_eq).2.2.2.1

theorem ruleText_eq (t : Accepted options) : t.line.ruleText = t.placed.rule.name :=
  (Rule.name_of_ofName? (place_eq_ok t.place_eq).2.2.1).symm

theorem placed_eq (t : Accepted options) :
    t.placed.state = { t.before with scopes := t.placed.state.scopes } :=
  (place_eq_ok t.place_eq).2.2.2.2

/-- An accepted line has a new number. -/
theorem formula?_eq_none (t : Accepted options) : t.before.formula? t.line.number = none :=
  formula?_eq_none_of_checkOrder (place_eq_ok t.place_eq).1

/-- **What an accepted line leaves behind**: one entry in each record. -/
theorem after_eq (t : Accepted options) :
    t.after = ⟨t.record :: t.before.formulas, t.before.order ++ [t.line.number],
      some t.line.number, t.placed.state.scopes.record t.line.number⟩ := by
  unfold after
  rw [t.placed_eq]
  rfl

end Accepted

/-- An accepted step is a placed line that keeps its rule. -/
theorem exists_accepted_of_step {options : CheckOptions} {s s' : ProofState} {line : ProofLine}
    (h : s.step options line = .ok s') :
    ∃ t : Accepted options, t.before = s ∧ t.line = line ∧ t.after = s' := by
  unfold step at h
  split at h
  · exact absurd h (by simp)
  · next placed hplace =>
      split at h
      · exact absurd h (by simp)
      · next hcheck =>
          rw [Except.ok.injEq] at h
          exact ⟨⟨s, line, placed, hplace, hcheck⟩, rfl, rfl, h⟩

/-- **Lines are accepted exactly if the first is, and the rest behind it.** -/
theorem runFrom_cons_eq_ok_iff {options : CheckOptions} {s s' : ProofState} {line : ProofLine}
    {rest : List ProofLine} {index : Nat} :
    runFrom options s index (line :: rest) = .ok s' ↔
      ∃ t, s.step options line = .ok t ∧ runFrom options t (index + 1) rest = .ok s' := by
  rw [runFrom]
  cases s.step options line with
  | error e => simp
  | ok t => simp

/-- **What every step keeps, a run keeps.** -/
theorem runFrom_induction {options : CheckOptions} {P : ProofState → Prop} {s s' : ProofState}
    {lines : List ProofLine} {index : Nat}
    (hstep : ∀ line ∈ lines, ∀ t t', P t → t.step options line = .ok t' → P t') (hs : P s)
    (h : runFrom options s index lines = .ok s') : P s' := by
  induction lines generalizing s index with
  | nil =>
      rw [runFrom, Except.ok.injEq] at h
      exact h ▸ hs
  | cons line rest ih =>
      obtain ⟨t, ht, hrest⟩ := runFrom_cons_eq_ok_iff.mp h
      have hfirst : P t := hstep line List.mem_cons_self s t hs ht
      exact ih (fun l hl => hstep l (List.mem_cons_of_mem _ hl)) hfirst hrest

/-- Behind lines that are accepted the rest is taken up from where they lead. -/
theorem runFrom_append {options : CheckOptions} {s s' : ProofState} {lines rest : List ProofLine}
    {index : Nat} (h : runFrom options s index lines = .ok s') :
    runFrom options s index (lines ++ rest) = runFrom options s' (index + lines.length) rest := by
  induction lines generalizing s index with
  | nil =>
      rw [runFrom, Except.ok.injEq] at h
      rw [h]
      rfl
  | cons line lines ih =>
      obtain ⟨t, hstep, hlines⟩ := runFrom_cons_eq_ok_iff.mp h
      rw [List.cons_append, runFrom, hstep]
      show runFrom options t (index + 1) (lines ++ rest) = _
      rw [ih hlines, List.length_cons]
      congr 1
      omega

/-- **A run fails exactly if it accepts some lines and refuses the next one**;
the failure says which one that is, and nothing of the lines behind it. -/
theorem runFrom_eq_error_iff {options : CheckOptions} {s : ProofState} {lines : List ProofLine}
    {index : Nat} {failure : CheckFailure} :
    runFrom options s index lines = .error failure ↔
      ∃ before line after s' cause span, lines = before ++ line :: after
        ∧ runFrom options s index before = .ok s' ∧ s'.step options line = .error (cause, span)
        ∧ failure = ⟨index + before.length, line.number, line.ruleText, cause, span⟩ := by
  constructor
  · intro h
    induction lines generalizing s index with
    | nil => exact absurd h (by simp [runFrom])
    | cons line rest ih =>
        cases hstep : s.step options line with
        | error refusal =>
            obtain ⟨cause, span⟩ := refusal
            rw [runFrom, hstep] at h
            exact ⟨[], line, rest, s, cause, span, rfl, rfl, hstep, (Except.error.inj h).symm⟩
        | ok t =>
            rw [runFrom, hstep] at h
            obtain ⟨before, line', after, s', cause, span, rfl, hbefore, hrefused, rfl⟩ := ih h
            refine ⟨line :: before, line', after, s', cause, span, rfl,
              runFrom_cons_eq_ok_iff.mpr ⟨t, hstep, hbefore⟩, hrefused, ?_⟩
            rw [List.length_cons, Nat.add_assoc, Nat.add_comm 1]
  · rintro ⟨before, line, after, s', cause, span, rfl, hbefore, hrefused, rfl⟩
    rw [runFrom_append hbefore, runFrom, hrefused]

/-! ## §2. The records of a check. -/

/-- **The records of a check are in step**: each line has one entry among the
formulas and one among the places, in the order in which the lines came, no two
lines have the same number, and the number last used is that of the last line. -/
structure InStep (s : ProofState) : Prop where
  formulas : s.formulas.map Prod.fst = s.order.reverse
  places : s.scopes.places.map Prod.fst = s.order.reverse
  lastLine : s.lastLine = s.order.getLast?
  nodup : s.order.Nodup

namespace InStep

variable {options : CheckOptions} {s s' : ProofState}

theorem empty : ProofState.empty.InStep := ⟨rfl, rfl, rfl, List.nodup_nil⟩

/-- A number has a formula on record exactly if it is in the order. -/
theorem formula?_eq_none_iff (hs : s.InStep) {n : Nat} : s.formula? n = none ↔ n ∉ s.order := by
  rw [← List.mem_reverse, ← hs.formulas]
  unfold formula?
  rw [List.lookup_eq_none_iff]
  simp only [bne_iff_ne, List.mem_map, not_exists, not_and]
  exact forall₂_congr fun entry _ => ne_comm

theorem nodup_formulas (hs : s.InStep) : (s.formulas.map Prod.fst).Nodup := by
  rw [hs.formulas]
  exact List.nodup_reverse.mpr hs.nodup

/-- Opening and closing subproofs leaves the places of the lines as they are. -/
theorem places_placed (t : Accepted options) :
    t.placed.state.scopes.places = t.before.scopes.places := by
  rw [(Scopes.fits_of_enter t.enter_eq).2]
  unfold Scopes.entered
  split
  · rfl
  · rfl

/-- **An accepted line keeps the records in step**: its number is new, so no entry
for an earlier line is overwritten. -/
theorem after (t : Accepted options) (hs : t.before.InStep) : t.after.InStep := by
  have hnew : t.line.number ∉ t.before.order := hs.formula?_eq_none_iff.mp t.formula?_eq_none
  rw [t.after_eq]
  refine ⟨?_, ?_, ?_, ?_⟩
  · rw [List.map_cons, hs.formulas, List.reverse_concat]
    rfl
  · show t.line.number :: t.placed.state.scopes.places.map Prod.fst = _
    rw [places_placed, hs.places, List.reverse_concat]
  · exact List.getLast?_concat.symm
  · exact List.nodup_append.mpr ⟨hs.nodup, List.nodup_singleton _, fun n hn m hm heq =>
      hnew (List.mem_singleton.mp hm ▸ heq ▸ hn)⟩

/-- **A step keeps the records in step.** -/
theorem step {line : ProofLine} (hs : s.InStep) (h : s.step options line = .ok s') :
    s'.InStep := by
  obtain ⟨t, rfl, rfl, rfl⟩ := exists_accepted_of_step h
  exact hs.after t

/-- **A run keeps the records in step.** -/
theorem runFrom {lines : List ProofLine} {index : Nat} (hs : s.InStep)
    (h : ProofState.runFrom options s index lines = .ok s') : s'.InStep :=
  runFrom_induction (fun _ _ _ _ ht hstep => ht.step hstep) hs h

/-- The lines of a finished proof are those on record, in the order in which
they came. -/
theorem lines_finish (hs : s.InStep) : s.finish.lines = s.formulas.reverse := by
  have horder : s.order = s.formulas.reverse.map Prod.fst := by
    rw [List.map_reverse, hs.formulas, List.reverse_reverse]
  have hentry : ∀ entry ∈ s.formulas.reverse,
      ((s.formula? entry.1).map fun f => (entry.1, f)) = some entry := by
    intro entry hentry
    have hfound : s.formula? entry.1 = some entry.2 :=
      lookup_eq_some_of_mem hs.nodup_formulas (List.mem_reverse.mp hentry)
    rw [hfound]
    rfl
  show s.order.filterMap (fun n => (s.formula? n).map fun f => (n, f)) = _
  rw [horder, List.filterMap_map]
  exact (List.filterMap_congr hentry).trans List.filterMap_some

end InStep

/-! ## §3. Histories. -/

/-- The state after accepting some lines in order. -/
inductive History (options : CheckOptions) : List (Accepted options) → ProofState → Prop
  | start : History options [] .empty
  | next {h : List (Accepted options)} {s : ProofState} (t : Accepted options) :
      History options h s → t.before = s → History options (h ++ [t]) t.after

namespace History

variable {options : CheckOptions} {h : List (Accepted options)} {s : ProofState}

/-- A history keeps the records in step. -/
theorem inStep (hh : History options h s) : s.InStep := by
  induction hh with
  | start => exact .empty
  | next t hh hbefore ih => exact .after t (hbefore ▸ ih)

/-- The formulas on record are those of the history, the last line first. -/
theorem formulas_eq (hh : History options h s) :
    s.formulas = (h.map Accepted.record).reverse := by
  induction hh with
  | start => rfl
  | next t hh hbefore ih =>
      rw [t.after_eq, List.map_append, List.map_singleton, List.reverse_concat, ← ih, ← hbefore]

/-- The order of the lines is that of the history. -/
theorem order_eq (hh : History options h s) : s.order = h.map fun t => t.line.number := by
  induction hh with
  | start => rfl
  | next t hh hbefore ih =>
      rw [t.after_eq, List.map_append, List.map_singleton, ← ih, ← hbefore]

/-- **The lines of a finished proof are those of its history.** -/
theorem lines_finish (hh : History options h s) : s.finish.lines = h.map Accepted.record := by
  rw [hh.inStep.lines_finish, hh.formulas_eq, List.reverse_reverse]

/-- A history walks through the subproofs. -/
theorem walk (hh : History options h s) : Walk (h.map Accepted.visit) s.scopes := by
  induction hh with
  | start => exact .start
  | next t hh hbefore ih =>
      rw [List.map_append]
      rw [← hbefore] at ih
      exact Walk.next ih t.enter_eq

/-- The history of the state before any one of its lines. -/
theorem take (hh : History options h s) {i : Nat} {t : Accepted options}
    (hi : h[i]? = some t) : History options (h.take i) t.before := by
  induction hh with
  | start => exact absurd hi (by simp)
  | @next h s t' hh hbefore ih =>
      by_cases hlast : i < h.length
      · rw [List.getElem?_append_left hlast] at hi
        rw [List.take_append_of_le_length (Nat.le_of_lt hlast)]
        exact ih hi
      · have hbound := (List.getElem?_eq_some_iff.mp hi).1
        rw [List.length_append, List.length_singleton] at hbound
        have hieq : i = h.length := by omega
        rw [hieq, List.getElem?_concat_length, Option.some.injEq] at hi
        rw [hieq, List.take_left, ← hi, hbefore]
        exact hh

/-- **No two lines have the same number.** -/
theorem nodup (hh : History options h s) : (h.map fun t => t.line.number).Nodup :=
  hh.order_eq ▸ hh.inStep.nodup

end History

/-- Lines that are accepted one after the other make up a history. -/
theorem exists_history_of_runFrom {options : CheckOptions} :
    ∀ (lines : List ProofLine) {h : List (Accepted options)} {s s' : ProofState} {index : Nat},
      History options h s → runFrom options s index lines = .ok s' →
      ∃ h', History options (h ++ h') s' ∧ h'.map Accepted.line = lines
  | [], h, s, s', index, hh, hrun => by
      rw [runFrom, Except.ok.injEq] at hrun
      rw [← hrun]
      exact ⟨[], by rwa [List.append_nil], rfl⟩
  | line :: rest, h, s, s', index, hh, hrun => by
      obtain ⟨s₁, hstep, hrest⟩ := runFrom_cons_eq_ok_iff.mp hrun
      obtain ⟨t, hbefore, hline, hafter⟩ := exists_accepted_of_step hstep
      have hnext : History options (h ++ [t]) s₁ := by
        rw [← hafter]
        exact .next t hh hbefore
      -- The first line makes the history longer, and the rest goes on from there.
      obtain ⟨h', hh', hlines⟩ := exists_history_of_runFrom rest hnext hrest
      refine ⟨t :: h', ?_, by rw [List.map_cons, hline, hlines]⟩
      rwa [List.append_assoc, List.singleton_append] at hh'

end ProofState

/-! ## §4. The numbers in a state. -/

/-- The line numbers in the records of subproofs are among `numbers`. -/
structure Scopes.NumberedIn (numbers : Set Nat) (s : Scopes) : Prop where
  openedBy : ∀ entry ∈ s.openedBy, entry.1 ∈ numbers
  places : ∀ entry ∈ s.places, entry.1 ∈ numbers
  lastDirect : ∀ subproof ∈ s.subproofs, ∀ n ∈ subproof.lastDirect, n ∈ numbers

namespace Scopes

variable {numbers : Set Nat} {s : Scopes}

/-- A line brings only its own number into the records. -/
theorem NumberedIn.entered (hs : s.NumberedIn numbers) {entry : Entry}
    (hn : entry.number ∈ numbers) (known : Nat → Option Formula) :
    (s.entered known entry).NumberedIn numbers := by
  unfold Scopes.entered
  split
  · refine ⟨?_, hs.places, ?_⟩
    · intro e he
      rcases List.mem_cons.mp he with rfl | hold
      · exact hn
      · exact hs.openedBy e hold
    · intro subproof hmem n hdirect
      rcases List.mem_append.mp hmem with hold | hnew
      · exact hs.lastDirect subproof hold n hdirect
      · rw [List.mem_singleton.mp hnew] at hdirect
        exact absurd hdirect (by simp)
  · exact ⟨hs.openedBy, hs.places, hs.lastDirect⟩

theorem NumberedIn.record (hs : s.NumberedIn numbers) {n : Nat} (hn : n ∈ numbers) :
    (s.record n).NumberedIn numbers := by
  refine ⟨hs.openedBy, ?_, ?_⟩
  · intro e he
    rcases List.mem_cons.mp he with rfl | hold
    · exact hn
    · exact hs.places e hold
  · intro subproof hmem m hdirect
    obtain ⟨id, hid⟩ := List.mem_iff_getElem?.mp hmem
    rw [record_getElem?, Option.map_eq_some_iff] at hid
    obtain ⟨old, hold, rfl⟩ := hid
    split at hdirect
    · rw [← Option.some.inj hdirect]
      exact hn
    · exact hs.lastDirect old (List.mem_of_getElem? hold) m hdirect

end Scopes

/-- The line numbers in a state are among `numbers`. -/
structure ProofState.NumberedIn (numbers : Set Nat) (s : ProofState) : Prop where
  formulas : ∀ entry ∈ s.formulas, entry.1 ∈ numbers
  lastLine : ∀ n ∈ s.lastLine, n ∈ numbers
  scopes : s.scopes.NumberedIn numbers

namespace ProofState

variable {numbers : Set Nat} {options : CheckOptions} {s : ProofState} {line : ProofLine}

theorem NumberedIn.empty : ProofState.empty.NumberedIn numbers :=
  ⟨by simp [ProofState.empty], by simp [ProofState.empty],
    by simp [ProofState.empty, Scopes.empty], by simp [ProofState.empty, Scopes.empty],
    by simp [ProofState.empty, Scopes.empty]⟩

theorem NumberedIn.placed (hs : s.NumberedIn numbers) (hn : line.number ∈ numbers)
    {placed : Placed} (h : s.place options line = .ok placed) :
    placed.state.NumberedIn numbers := by
  obtain ⟨-, -, -, henter, hstate⟩ := place_eq_ok h
  have hentry : line.entry.number ∈ numbers := hn
  have hscopes : placed.state.scopes.NumberedIn numbers := by
    rw [(Scopes.fits_of_enter henter).2]
    exact hs.scopes.entered hentry _
  rw [hstate]
  exact ⟨hs.formulas, hs.lastLine, hscopes⟩

theorem NumberedIn.accept (hs : s.NumberedIn numbers) {n : Nat} (hn : n ∈ numbers)
    (f : Formula) : (s.accept n f).NumberedIn numbers := by
  refine ⟨?_, ?_, hs.scopes.record hn⟩
  · intro entry hentry
    rcases List.mem_cons.mp hentry with rfl | hold
    · exact hn
    · exact hs.formulas entry hold
  · rintro m ⟨⟩
    exact hn

/-- A step brings only the number of its line into the state. -/
theorem NumberedIn.step (hs : s.NumberedIn numbers) (hn : line.number ∈ numbers)
    {s' : ProofState} (h : s.step options line = .ok s') : s'.NumberedIn numbers := by
  obtain ⟨t, rfl, rfl, rfl⟩ := exists_accepted_of_step h
  exact (hs.placed hn t.place_eq).accept hn _

/-- **The numbers in a state are those of the lines that led to it.** -/
theorem NumberedIn.runFrom {lines : List ProofLine} (hlines : ∀ line ∈ lines, line.number ∈ numbers)
    (hs : s.NumberedIn numbers) {index : Nat} {s' : ProofState}
    (h : ProofState.runFrom options s index lines = .ok s') : s'.NumberedIn numbers :=
  runFrom_induction (fun line hline _ _ ht hstep => ht.step (hlines line hline) hstep) hs h

end ProofState

/-! ## §5. Whole proofs. -/

open ProofState (Accepted History)

/-- The proof lines of a text, none if one of them is malformed. -/
def proofLines (text : String) : List ProofLine :=
  match readProof text with
  | .ok lines => lines.map LocatedLine.line
  | .error _ => []

/-- An accepted proof has led to a state, and its verified lines are what is on
record there. -/
theorem check_eq_ok {options : CheckOptions} {lines : List ProofLine} {proof : VerifiedProof}
    (h : check options lines = .ok proof) :
    ∃ s, ProofState.run options lines = .ok s ∧ proof = s.finish := by
  unfold check at h
  split at h
  · exact absurd h (by simp)
  · next s hrun => exact ⟨s, hrun, (Except.ok.inj h).symm⟩

/-- **An accepted text has a history**, which leads to the state behind its last
line, and the verified lines are what is on record there. -/
theorem exists_history {options : CheckOptions} {text : String} {proof : VerifiedProof}
    (h : checkSource options text = .ok proof) :
    ∃ (t : List (Accepted options)) (s : ProofState), History options t s
      ∧ ProofState.run options (proofLines text) = .ok s
      ∧ t.map Accepted.line = proofLines text ∧ proof = s.finish := by
  unfold checkSource at h
  split at h
  · exact absurd h (by simp)
  · next lines hread =>
      split at h
      · exact absurd h (by simp)
      · next proof' hcheck =>
          rw [Except.ok.injEq] at h
          rw [← h]
          have hlinesEq : proofLines text = lines.map LocatedLine.line := by
            rw [proofLines, hread]
          obtain ⟨s, hrun, rfl⟩ := check_eq_ok hcheck
          obtain ⟨t, ht, hlines⟩ := ProofState.exists_history_of_runFrom _ .start hrun
          rw [List.nil_append] at ht
          rw [← hlinesEq] at hrun hlines
          exact ⟨t, s, ht, hrun, hlines, rfl⟩

end NaturalDeduction
