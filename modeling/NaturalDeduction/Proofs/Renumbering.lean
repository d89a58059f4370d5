/-
  NaturalDeduction.Proofs.Renumbering
  ───────────────────────────────────
  **LINE NUMBERS ARE NAMES IN ORDER, and nothing more.**

  The state of a check is full of line numbers: those of the formulas on record,
  the order of the lines, the number last used, the places of the lines, the
  first line of each subproof and the last directly inside.
  Numbers of subproofs, depths and places of citations are numbers of other
  kinds, and stay as they are when the lines get new numbers.  A renumbering
  has to keep the order of the numbers that are given or cited, and may do as
  it likes with all others.  Main statements:

    • `Scopes.entered_renumber`, `ProofState.context_renumber` — the subproofs
      and the citations lead to the same places after a renumbering,
    • `ProofState.step_renumber` — so does a whole step, and it fails alike,
    • `check_renumber` — and so a check comes to the same end.
-/
import Mathlib.Data.List.Forall2
import Mathlib.Data.Set.Function
import Mathlib.Order.Monotone.Basic
import NaturalDeduction.Proofs.History

namespace NaturalDeduction

/-! ## §1. New numbers for old. -/

/-- The line numbers in a citation. -/
def Citation.numbers : Citation → List Nat
  | line number _ => [number]
  | subproof first last => [first, last]

/-- A citation with new numbers. -/
def Citation.renumber (r : Nat → Nat) : Citation → Citation
  | line number substitution => line (r number) substitution
  | subproof first last => subproof (r first) (r last)

/-- The numbers that a line bears and cites. -/
def ProofLine.numbers (line : ProofLine) : List Nat :=
  line.number :: line.citations.flatMap fun piece => (piece.map Citation.numbers).getD []

/-- The numbers that lines bear and cite. -/
def lineNumbers (lines : List ProofLine) : Set Nat := {n | ∃ line ∈ lines, n ∈ line.numbers}

/-- **One line is another with new numbers**: on itself and in its citations,
however these are written.  Nothing else differs. -/
structure ProofLine.Renumbers (r : Nat → Nat) (line line' : ProofLine) : Prop where
  number : line'.number = r line.number
  depth : line'.depth = line.depth
  flag : line'.flag = line.flag
  formulaText : line'.formulaText = line.formulaText
  ruleText : line'.ruleText = line.ruleText
  spans : line'.spans = line.spans
  citations : line'.citations = line.citations.map (Option.map (Citation.renumber r))

instance (r : Nat → Nat) (line line' : ProofLine) : Decidable (line.Renumbers r line') :=
  decidable_of_iff
    (line'.number = r line.number ∧ line'.depth = line.depth ∧ line'.flag = line.flag
      ∧ line'.formulaText = line.formulaText ∧ line'.ruleText = line.ruleText
      ∧ line'.spans = line.spans
      ∧ line'.citations = line.citations.map (Option.map (Citation.renumber r)))
    ⟨fun ⟨h₁, h₂, h₃, h₄, h₅, h₆, h₇⟩ => ⟨h₁, h₂, h₃, h₄, h₅, h₆, h₇⟩,
      fun ⟨h₁, h₂, h₃, h₄, h₅, h₆, h₇⟩ => ⟨h₁, h₂, h₃, h₄, h₅, h₆, h₇⟩⟩

/-- Entries under new numbers. -/
def renumberKeys {β : Type} (r : Nat → Nat) (l : List (Nat × β)) : List (Nat × β) :=
  l.map fun entry => (r entry.1, entry.2)

/-- A verified proof with new numbers. -/
def VerifiedProof.renumber (r : Nat → Nat) (proof : VerifiedProof) : VerifiedProof :=
  ⟨renumberKeys r proof.formulas, proof.order.map r⟩

/-- A cause with new numbers.  Only one that speaks of an earlier line has
any. -/
def FailureCause.renumber (r : Nat → Nat) : FailureCause → FailureCause
  | lineOrder previous => lineOrder (r previous)
  | cause => cause

/-- A failure with new numbers.  How many lines came before is no line
number. -/
def CheckFailure.renumber (r : Nat → Nat) (failure : CheckFailure) : CheckFailure :=
  { failure with number := r failure.number, cause := failure.cause.renumber r }

/-- The subproofs with new numbers for their lines. -/
def Scopes.renumber (r : Nat → Nat) (s : Scopes) : Scopes where
  subproofs := s.subproofs.map fun subproof =>
    { subproof with lastDirect := subproof.lastDirect.map r }
  openedBy := renumberKeys r s.openedBy
  path := s.path
  places := renumberKeys r s.places

/-- A state with new numbers for its lines. -/
def ProofState.renumber (r : Nat → Nat) (s : ProofState) : ProofState :=
  ⟨renumberKeys r s.formulas, s.order.map r, s.lastLine.map r, s.scopes.renumber r⟩

/-! ## §2. Look-ups under new numbers. -/

section

variable {r : Nat → Nat} {numbers : Set Nat}

/-- **A look-up under a new number finds what it found under the old one**, if
no other entry got that number. -/
theorem lookup_renumberKeys {β : Type} (hr : Set.InjOn r numbers) {l : List (Nat × β)}
    (hl : ∀ entry ∈ l, entry.1 ∈ numbers) {n : Nat} (hn : n ∈ numbers) :
    (renumberKeys r l).lookup (r n) = l.lookup n := by
  induction l with
  | nil => rfl
  | cons entry l ih =>
      have hkey : entry.1 ∈ numbers := hl entry List.mem_cons_self
      have hsame : (r n == r entry.1) = (n == entry.1) := by
        rw [Bool.eq_iff_iff, beq_iff_eq, beq_iff_eq]
        exact hr.eq_iff hn hkey
      show ((r entry.1, entry.2) :: renumberKeys r l).lookup (r n) = (entry :: l).lookup n
      rw [List.lookup_cons, List.lookup_cons, hsame,
        ih fun e he => hl e (List.mem_cons_of_mem _ he)]

/-! ## §3. Subproofs. -/

namespace Scopes

variable {s s' : Scopes} {known known' : Nat → Option Formula}

@[simp] theorem renumber_path (s : Scopes) : (s.renumber r).path = s.path := rfl

theorem renumber_getElem? (s : Scopes) (id : Nat) :
    (s.renumber r).subproofs[id]? = (s.subproofs[id]?).map fun subproof =>
      { subproof with lastDirect := subproof.lastDirect.map r } := List.getElem?_map

theorem isVisibleFrom_renumber (hr : Set.InjOn r numbers) (hs : s.NumberedIn numbers)
    (path : Path) {n : Nat} (hn : n ∈ numbers) :
    (s.renumber r).isVisibleFrom path (r n) = s.isVisibleFrom path n := by
  show ((renumberKeys r s.places).lookup (r n)).any _ = _
  rw [lookup_renumberKeys hr hs.places hn]
  rfl

/-- A name is as fresh as before, for the formulas are the same. -/
theorem isFreshAt_renumber (hr : Set.InjOn r numbers) (hs : s.NumberedIn numbers)
    (hknown : ∀ n ∈ numbers, known' (r n) = known n) (path : Path) (z : Name) :
    (s.renumber r).isFreshAt known' path z = s.isFreshAt known path z := by
  show (renumberKeys r s.places).all _ = s.places.all _
  rw [renumberKeys, List.all_map, Bool.eq_iff_iff, List.all_eq_true, List.all_eq_true]
  refine forall₂_congr fun entry hentry => ?_
  have hn : entry.1 ∈ numbers := hs.places entry hentry
  show (!((s.renumber r).isVisibleFrom path (r entry.1) && _)) = true ↔ _
  rw [isVisibleFrom_renumber hr hs path hn, hknown _ hn]

/-- The closed subproof between two lines is the one between the same lines
before. -/
theorem closed?_renumber (hr : Set.InjOn r numbers) (hs : s.NumberedIn numbers)
    {first last : Nat} (hfirst : first ∈ numbers) (hlast : last ∈ numbers) :
    (s.renumber r).closed? (r first) (r last) = (s.closed? first last).map fun subproof =>
      { subproof with lastDirect := subproof.lastDirect.map r } := by
  have hlookup : (s.renumber r).openedBy.lookup (r first) = s.openedBy.lookup first :=
    lookup_renumberKeys hr hs.openedBy hfirst
  unfold closed?
  rw [hlookup]
  cases s.openedBy.lookup first with
  | none => rfl
  | some id =>
      dsimp only
      rw [renumber_getElem?]
      cases hid : s.subproofs[id]? with
      | none => rfl
      | some subproof =>
          -- The last line directly inside got the number of the cited last line
          -- exactly if it had it before.
          have hsame : subproof.lastDirect.map r = some (r last)
              ↔ subproof.lastDirect = some last := by
            cases hdirect : subproof.lastDirect with
            | none => simp
            | some n =>
                have hn : n ∈ numbers := hs.lastDirect subproof (List.mem_of_getElem? hid) n hdirect
                simp only [Option.map_some, Option.some.injEq]
                exact hr.eq_iff hn hlast
          simp only [Option.map_some, hsame, renumber_path]
          split
          · rfl
          · rfl

theorem openAt_renumber (hr : Set.InjOn r numbers) (hs : s.NumberedIn numbers)
    (hknown : ∀ n ∈ numbers, known' (r n) = known n) (parent : Path) (entry : Entry) :
    (s.renumber r).openAt known' parent { entry with number := r entry.number }
      = (s.openAt known parent entry).renumber r := by
  have hfresh : (s.renumber r).isFreshAt known' parent = s.isFreshAt known parent :=
    funext (isFreshAt_renumber hr hs hknown parent)
  unfold openAt
  rw [hfresh]
  simp [renumber, renumberKeys]

/-- **Entering a line leads to the same place after a renumbering.** -/
theorem entered_renumber (hr : Set.InjOn r numbers) (hs : s.NumberedIn numbers)
    (hknown : ∀ n ∈ numbers, known' (r n) = known n) (entry : Entry) :
    (s.renumber r).entered known' { entry with number := r entry.number }
      = (s.entered known entry).renumber r := by
  unfold entered
  by_cases hopens : entry.opens = true
  · rw [if_pos hopens, if_pos (by exact hopens)]
    exact openAt_renumber hr hs hknown _ entry
  · rw [if_neg hopens, if_neg (by exact hopens)]
    rfl

theorem record_renumber (s : Scopes) (n : Nat) :
    (s.renumber r).record (r n) = (s.record n).renumber r := by
  have hsubproofs : ((s.renumber r).record (r n)).subproofs
      = ((s.record n).renumber r).subproofs := by
    refine List.ext_getElem? fun id => ?_
    rw [renumber_getElem?, record_getElem?, record_getElem?, renumber_getElem?, Option.map_map,
      Option.map_map]
    congr 1
    funext subproof
    show (if s.path.getLast? = some id then _ else _) = _
    dsimp only [Function.comp]
    split
    · rfl
    · rfl
  exact (Scopes.mk.injEq ..).mpr ⟨hsubproofs, rfl, rfl, rfl⟩

end Scopes

/-! ## §4. One line. -/

namespace ProofState

variable {s : ProofState} {line line' : ProofLine} {options : CheckOptions}

theorem formula?_renumber (hr : Set.InjOn r numbers) (hs : s.NumberedIn numbers) {n : Nat}
    (hn : n ∈ numbers) : (s.renumber r).formula? (r n) = s.formula? n :=
  lookup_renumberKeys hr hs.formulas hn

theorem visible?_renumber (hr : Set.InjOn r numbers) (hs : s.NumberedIn numbers) {n : Nat}
    (hn : n ∈ numbers) : (s.renumber r).visible? (r n) = s.visible? n := by
  unfold visible?
  rw [formula?_renumber hr hs hn]
  show (if (s.scopes.renumber r).isVisibleFrom s.scopes.path (r n) = true then _ else _) = _
  rw [Scopes.isVisibleFrom_renumber hr hs.scopes _ hn]
  rfl

theorem subproof?_renumber (hr : Set.InjOn r numbers) (hs : s.NumberedIn numbers)
    {first last : Nat} (hfirst : first ∈ numbers) (hlast : last ∈ numbers) :
    (s.renumber r).subproof? (r first) (r last) = s.subproof? first last := by
  have hscopes : (s.renumber r).scopes = s.scopes.renumber r := rfl
  unfold subproof?
  rw [hscopes, Scopes.closed?_renumber hr hs.scopes hfirst hlast,
    formula?_renumber hr hs hfirst, formula?_renumber hr hs hlast]
  cases s.scopes.closed? first last with
  | none => rfl
  | some subproof =>
      cases s.formula? first with
      | none => rfl
      | some f =>
          cases s.formula? last with
          | none => rfl
          | some g => rfl

/-- A citation leads to the same formula and the same subproof. -/
theorem cite_renumber (hr : Set.InjOn r numbers) (hs : s.NumberedIn numbers)
    {piece : Option Citation} (hpiece : ∀ cited ∈ piece, ∀ n ∈ cited.numbers, n ∈ numbers) :
    (s.renumber r).cite (piece.map (Citation.renumber r)) = s.cite piece := by
  cases piece with
  | none => rfl
  | some cited =>
      have hcited := hpiece cited rfl
      cases cited with
      | line number substitution =>
          have hn : number ∈ numbers := hcited number (by simp [Citation.numbers])
          show Cited.mk _ _ _ = Cited.mk _ _ _
          rw [visible?_renumber hr hs hn]
      | subproof first last =>
          have hfirst : first ∈ numbers := hcited first (by simp [Citation.numbers])
          have hlast : last ∈ numbers := hcited last (by simp [Citation.numbers])
          show Cited.mk _ _ _ = Cited.mk _ _ _
          rw [visible?_renumber hr hs hfirst, subproof?_renumber hr hs hfirst hlast]

/-- **A rule looks at the same things after a renumbering.** -/
theorem context_renumber (hr : Set.InjOn r numbers) (hs : s.NumberedIn numbers)
    (h : line.Renumbers r line') (hline : ∀ n ∈ line.numbers, n ∈ numbers) (f : Formula) :
    (s.renumber r).context line' f = s.context line f := by
  unfold context
  rw [h.depth, h.citations, List.map_map]
  congr 1
  refine List.map_congr_left fun piece hpiece => cite_renumber hr hs ?_
  intro cited hcited n hn
  refine hline n (List.mem_cons_of_mem _ (List.mem_flatMap.mpr ⟨piece, hpiece, ?_⟩))
  rw [Option.mem_def.mp hcited]
  exact hn

/-- The numbers are in order or not as before. -/
theorem checkOrder_renumber (hr : StrictMonoOn r numbers) (hs : s.NumberedIn numbers)
    (h : line.Renumbers r line') (hn : line.number ∈ numbers) :
    checkOrder options (s.renumber r) line'
      = (checkOrder options s line).mapError (FailureCause.renumber r) := by
  unfold checkOrder
  rw [h.number, formula?_renumber hr.injOn hs hn,
    show (s.renumber r).lastLine = s.lastLine.map r from rfl]
  split
  · rfl
  · split
    · cases hlast : s.lastLine with
      | none => rfl
      | some previous =>
          have hprevious : previous ∈ numbers := hs.lastLine previous hlast
          simp only [Option.map_some, hr.le_iff_le hn hprevious]
          split
          · rfl
          · rfl
    · rfl

theorem entry_renumber (h : line.Renumbers r line') :
    line'.entry = { line.entry with number := r line.entry.number } := by
  unfold ProofLine.entry
  rw [h.number, h.depth, h.flag, h.ruleText]

/-- **A line is placed after a renumbering as it was before**, or does not get
that far for the same reason. -/
theorem place_renumber (hr : StrictMonoOn r numbers) (hs : s.NumberedIn numbers)
    (h : line.Renumbers r line') (hn : line.number ∈ numbers) :
    (s.renumber r).place options line'
      = ((s.place options line).map fun placed =>
          { placed with state := placed.state.renumber r }).mapError
        fun failure => (failure.1.renumber r, failure.2) := by
  have hread : readFormula options line' = readFormula options line := by
    unfold readFormula
    rw [h.formulaText]
  have hentered := Scopes.entered_renumber hr.injOn hs.scopes
    (fun n hn => formula?_renumber hr.injOn hs hn) line.entry
  have horder : checkOrder options (s.renumber r) line'
      = (checkOrder options s line).mapError (FailureCause.renumber r) :=
    checkOrder_renumber hr hs h hn
  cases horder' : checkOrder options s line with
  | error cause =>
      rw [horder'] at horder
      unfold place
      rw [horder, horder', h.spans]
      rfl
  | ok u =>
      rw [horder'] at horder
      cases hread' : readFormula options line with
      | error e =>
          unfold place
          rw [horder, horder', hread, hread', h.spans]
          rfl
      | ok f =>
          cases hrule : Rule.ofName? line.ruleText with
          | none =>
              unfold place
              rw [horder, horder', hread, hread', h.ruleText, hrule, h.spans]
              rfl
          | some rule =>
              -- Whether the line fits is a matter of depths, which stay the same.
              have hfault : Scopes.fault? (s.renumber r).scopes.path.length line'.entry
                  = Scopes.fault? s.scopes.path.length line.entry := by
                rw [entry_renumber h]
                rfl
              rw [place_of_read horder' hread' hrule, place_of_read horder (hread.trans hread')
                (h.ruleText ▸ hrule), hfault]
              cases Scopes.fault? s.scopes.path.length line.entry with
              | some fault =>
                  rw [h.spans]
                  rfl
              | none =>
                  rw [entry_renumber h]
                  show Except.ok (Placed.mk rule f ⟨_, _, _, (s.scopes.renumber r).entered _ _⟩) = _
                  rw [hentered]
                  rfl

theorem accept_renumber (s : ProofState) (n : Nat) (f : Formula) :
    (s.renumber r).accept (r n) f = (s.accept n f).renumber r := by
  unfold accept renumber
  rw [Scopes.record_renumber]
  simp [renumberKeys]

/-- **A step after a renumbering is the same step**, and if it fails, it fails
for the same reason and at the same bytes. -/
theorem step_renumber (hr : StrictMonoOn r numbers) (hs : s.NumberedIn numbers)
    (h : line.Renumbers r line') (hline : ∀ n ∈ line.numbers, n ∈ numbers) :
    (s.renumber r).step options line'
      = ((s.step options line).map (renumber r)).mapError
        fun failure => (failure.1.renumber r, failure.2) := by
  have hn : line.number ∈ numbers := hline _ List.mem_cons_self
  unfold step
  rw [place_renumber hr hs h hn]
  cases hplace : s.place options line with
  | error e => rfl
  | ok placed =>
      have hcontext := context_renumber hr.injOn (hs.placed hn hplace) h hline placed.formula
      dsimp only [Except.map, Except.mapError]
      rw [hcontext, h.spans, h.number, accept_renumber]
      cases placed.rule.check (placed.state.context line placed.formula) with
      | error v => rfl
      | ok u => rfl

/-! ## §5. All lines. -/

/-- **A run after a renumbering is the same run.** -/
theorem runFrom_renumber (hr : StrictMonoOn r numbers) {lines lines' : List ProofLine}
    (h : List.Forall₂ (ProofLine.Renumbers r) lines lines')
    (hlines : lineNumbers lines ⊆ numbers) (hs : s.NumberedIn numbers) (index : Nat) :
    runFrom options (s.renumber r) index lines'
      = ((runFrom options s index lines).map (renumber r)).mapError (CheckFailure.renumber r) := by
  induction h generalizing s index with
  | nil => rfl
  | @cons line line' rest rest' hfirst hrest ih =>
      have hline : ∀ n ∈ line.numbers, n ∈ numbers := fun n hn =>
        hlines ⟨line, List.mem_cons_self, hn⟩
      have hmore : lineNumbers rest ⊆ numbers := fun n ⟨l, hl, hn⟩ =>
        hlines ⟨l, List.mem_cons_of_mem _ hl, hn⟩
      rw [runFrom, runFrom, step_renumber hr hs hfirst hline]
      cases hstep : s.step options line with
      | error e =>
          rw [hfirst.number, hfirst.ruleText]
          rfl
      | ok t => exact ih hmore (hs.step (hline _ List.mem_cons_self) hstep) (index + 1)

end ProofState

end

/-- **Renumbering invariance.**  If the lines of a proof get new numbers in the
same order, on themselves and in their citations, then the check accepts them
exactly if it accepted them before, with every formula at the new number of its
line; and if it fails, it fails at the same line, for the same reason and at
the same bytes, where an earlier line that it speaks of has its new number. -/
theorem check_renumber (options : CheckOptions) {r : Nat → Nat} {lines lines' : List ProofLine}
    (hr : StrictMonoOn r (lineNumbers lines))
    (h : List.Forall₂ (ProofLine.Renumbers r) lines lines') :
    check options lines'
      = ((check options lines).map (VerifiedProof.renumber r)).mapError
        (CheckFailure.renumber r) := by
  have hrun : ProofState.run options lines'
      = ((ProofState.run options lines).map (ProofState.renumber r)).mapError
        (CheckFailure.renumber r) :=
    ProofState.runFrom_renumber hr h (fun n hn => hn) .empty 0
  unfold check
  rw [hrun]
  cases ProofState.run options lines with
  | error failure => rfl
  | ok s => rfl

/-- Lines 1 and 2 become lines 4 and 9, with the citation of the subproof; and
where line 1 came too late, line 4 comes too late, behind line 9. -/
theorem check_renumber_fours :
    check {} (proofLines "4. | P -assumption :\n9. P > P >-i : 4-4")
        = .ok ⟨[(9, .imp (.atom "P" []) (.atom "P" [])), (4, .atom "P" [])], [4, 9]⟩
      ∧ check {} (proofLines "9. P -premiss :\n4. P -premiss :")
        = .error ⟨1, 4, "-premiss", .lineOrder 9, ⟨0, 15⟩⟩ := by
  have hr : ∀ numbers : Set Nat, StrictMonoOn (fun n => 5 * n - 1) numbers := by
    intro numbers n _ m _ hlt
    show 5 * n - 1 < 5 * m - 1
    omega
  constructor
  · rw [check_renumber {} (hr (lineNumbers (proofLines "1. | P -assumption :\n2. P > P >-i : 1-1")))
      (by decide +kernel)]
    decide +kernel
  · rw [check_renumber {} (hr (lineNumbers (proofLines "2. P -premiss :\n1. P -premiss :")))
      (by decide +kernel)]
    decide +kernel

end NaturalDeduction
