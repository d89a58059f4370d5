/-
  NaturalDeduction.Proofs.Provenance
  ──────────────────────────────────
  **WHERE THE NAMES IN AN ERROR COME FROM.**

  An error quotes names and whole formulas, and some of the formulas stand
  nowhere in the text: a substitution has made them.  No name in them is new, for
  all that.  If the names of the lines belong to some set, then so do the names
  in whatever error ends the check.

    • `NamedIn.substitute` — a substitution brings in the new name only,
    • `namedIn_of_check` — a rule complains of nothing but what it looks at,
    • `NamedIn.step`, `NamedIn.step_error` — one line,
    • `NamedIn.runFrom`, `NamedIn.runFrom_error` — any number of lines.
-/
import NaturalDeduction.Proofs.History
import NaturalDeduction.Proofs.RuleTable

namespace NaturalDeduction

open ProofState (Placed)

/-! ## §1. The names of a formula. -/

/-- The predicates, the terms and the bound variables of a formula are among
`names`. -/
def Formula.NamedIn (names : Set Name) : Formula → Prop
  | falsity => True
  | atom predicate terms => predicate ∈ names ∧ ∀ t ∈ terms, t ∈ names
  | neg inner => inner.NamedIn names
  | join _ left right => left.NamedIn names ∧ right.NamedIn names
  | bind _ var body => var ∈ names ∧ body.NamedIn names

/-- **A substitution brings in no name but `t`.** -/
theorem Formula.NamedIn.substitute {names : Set Name} {x t : Name} (ht : t ∈ names) :
    ∀ {f g : Formula}, f.NamedIn names → f.substitute x t = some g → g.NamedIn names
  | falsity, g, hf, h => by
      rw [← Option.some.inj h]
      exact hf
  | atom predicate terms, g, hf, h => by
      rw [← Option.some.inj h]
      refine ⟨hf.1, fun name hname => ?_⟩
      obtain ⟨old, hold, rfl⟩ := List.mem_map.mp hname
      split
      · exact ht
      · exact hf.2 old hold
  | neg inner, g, hf, h => by
      obtain ⟨f, hinner, rfl⟩ := substitute_neg_eq_some_iff.mp h
      have hnames : inner.NamedIn names := hf
      show f.NamedIn names
      exact hnames.substitute ht hinner
  | join op left right, g, hf, h => by
      obtain ⟨l, r, hl, hr, rfl⟩ := substitute_join_eq_some_iff.mp h
      exact ⟨hf.1.substitute ht hl, hf.2.substitute ht hr⟩
  | bind q bound body, g, hf, h => by
      rcases substitute_bind_eq_some_iff.mp h with ⟨-, rfl⟩ | ⟨-, -, b, hb, rfl⟩
      · exact hf
      · exact ⟨hf.1, hf.2.substitute ht hb⟩

/-! ## §2. What a rule looks at, and what it complains of. -/

/-- The names in a violation are among `names`. -/
def Violation.NamedIn (names : Set Name) : Violation → Prop
  | missingCitation _ | missingSubproof _ | missingAssumption _ | resultShape _
  | inapplicable _ | premissInSubproof | missingFlag => True
  | wrongShape _ _ found => found.NamedIn names
  | mismatch f g | noContradiction f g | notAnInstance f g => f.NamedIn names ∧ g.NamedIn names
  | notFresh var | flagEscapes var => var ∈ names
  | wrongSubstitution term var bound => term ∈ names ∧ var ∈ names ∧ bound ∈ names

/-- The names of a cited subproof are among `names`. -/
structure CitedSubproof.NamedIn (names : Set Name) (b : CitedSubproof) : Prop where
  first : b.first.NamedIn names
  last : b.last.NamedIn names
  flag : ∀ z ∈ b.flag, z ∈ names

/-- The names in a note are among `names`. -/
structure Substitution.NamedIn (names : Set Name) (note : Substitution) : Prop where
  term : note.term ∈ names
  var : note.var ∈ names

/-- The names in all that a rule looks at are among `names`. -/
structure Context.NamedIn (names : Set Name) (c : Context) : Prop where
  result : c.result.NamedIn names
  formula : ∀ {index f}, c.Cites index f → f.NamedIn names
  subproof : ∀ {index b}, c.CitesSubproof index b → b.NamedIn names
  note : ∀ {index note}, (c.citedAt index).substitution? = some note → note.NamedIn names

/-- If a test fails, its complaint has no names but those among `names`. -/
def FailsIn (names : Set Name) {α : Type} (x : Except Violation α) : Prop :=
  ∀ v, x = .error v → v.NamedIn names

section

variable {names : Set Name} {α β : Type}

theorem FailsIn.ok {a : α} : FailsIn names (.ok a : Except Violation α) :=
  fun _ h => absurd h (by simp)

theorem FailsIn.error {v : Violation} (hv : v.NamedIn names) :
    FailsIn names (.error v : Except Violation α) := by
  intro w h
  rwa [← Except.error.inj h]

/-- Two tests in a row: the second may rely on what the first has found. -/
theorem FailsIn.bind {x : Except Violation α} {k : α → Except Violation β}
    (hx : FailsIn names x) (hk : ∀ a, x = .ok a → FailsIn names (k a)) :
    FailsIn names (x >>= k) := by
  cases x with
  | error v => exact FailsIn.error (hx v rfl)
  | ok a => exact hk a rfl

theorem FailsIn.ite {p : Prop} [Decidable p] {x y : Except Violation α} (hx : p → FailsIn names x)
    (hy : ¬p → FailsIn names y) : FailsIn names (if p then x else y) := by
  split
  · next hp => exact hx hp
  · next hp => exact hy hp

end

namespace Context

variable {names : Set Name} {α : Type} {c : Context}

/-- A cited formula is looked up before a test. -/
theorem NamedIn.formula_bind (hc : c.NamedIn names) (index : Nat)
    {k : Formula → Except Violation α} (hk : ∀ f, f.NamedIn names → FailsIn names (k f)) :
    FailsIn names (c.formula index >>= k) := by
  refine FailsIn.bind ?_ fun f hf => hk f (hc.formula (formula_eq_ok.mp hf))
  unfold Context.formula
  split
  · exact .ok
  · exact .error trivial

theorem subproof_failsIn (c : Context) (index : Nat) : FailsIn names (c.subproof index) := by
  unfold subproof
  split
  · exact .ok
  · exact .error trivial

/-- A cited subproof is looked up before a test. -/
theorem NamedIn.subproof_bind (hc : c.NamedIn names) (index : Nat)
    {k : CitedSubproof → Except Violation α} (hk : ∀ b, b.NamedIn names → FailsIn names (k b)) :
    FailsIn names (c.subproof index >>= k) :=
  FailsIn.bind (c.subproof_failsIn index) fun b hb => hk b (hc.subproof (subproof_eq_ok.mp hb))

/-- A cited subproof from an assumption is looked up before a test. -/
theorem NamedIn.hypothetical_bind (hc : c.NamedIn names) (index : Nat)
    {k : CitedSubproof → Except Violation α} (hk : ∀ b, b.NamedIn names → FailsIn names (k b)) :
    FailsIn names (c.hypothetical index >>= k) := by
  refine FailsIn.bind ?_ fun b hb => hk b (hc.subproof (hypothetical_eq_ok.mp hb).1)
  unfold hypothetical
  split
  · next v hv => exact .error (c.subproof_failsIn index v hv)
  · exact .ite (fun _ => .ok) fun _ => .error trivial

theorem NamedIn.conclude (hc : c.NamedIn names) {f : Formula} (hf : f.NamedIn names) :
    FailsIn names (c.conclude f) :=
  .ite (fun _ => .ok) fun _ => .error ⟨hf, hc.result⟩

end Context

namespace Rule

variable {names : Set Name} {c : Context}

/-! ### Rules for connectives. -/

theorem conjIntro_failsIn (hc : c.NamedIn names) : FailsIn names (checkConjIntro c) :=
  hc.formula_bind 0 fun _ hleft => hc.formula_bind 1 fun _ hright => hc.conclude ⟨hleft, hright⟩

theorem Side.pick_namedIn (side : Side) {f g : Formula} (hf : f.NamedIn names)
    (hg : g.NamedIn names) : (side.pick f g).NamedIn names := by
  cases side with
  | left => exact hf
  | right => exact hg

theorem conjElim_failsIn (side : Side) (hc : c.NamedIn names) :
    FailsIn names (checkConjElim side c) := by
  refine hc.formula_bind 0 fun parent hparent => ?_
  split
  · exact hc.conclude (side.pick_namedIn hparent.1 hparent.2)
  · exact .error hparent

theorem disjIntro_failsIn (side : Side) (hc : c.NamedIn names) :
    FailsIn names (checkDisjIntro side c) := by
  refine hc.formula_bind 0 fun parent hparent => ?_
  have hresult := hc.result
  split
  · next left right hdisj =>
      rw [hdisj] at hresult
      exact .ite (fun _ => .ok) fun _ => .error
        ⟨hparent, side.pick_namedIn hresult.1 hresult.2⟩
  · exact .error trivial

theorem disjElim_failsIn (hc : c.NamedIn names) : FailsIn names (checkDisjElim c) := by
  refine hc.formula_bind 0 fun parent hparent => ?_
  split
  · next left right =>
      refine hc.hypothetical_bind 1 fun leftCase hl => hc.hypothetical_bind 2 fun rightCase hr => ?_
      refine .ite (fun _ => .error ⟨hparent.1, hl.first⟩) fun _ => ?_
      refine .ite (fun _ => .error ⟨hparent.2, hr.first⟩) fun _ => ?_
      exact .ite (fun _ => .error ⟨hl.last, hr.last⟩) fun _ => hc.conclude hl.last
  · exact .error hparent

/-- What two formulas yield whichever comes first has their names, if what they
yield in order has. -/
theorem namedIn_of_yields {yield? : Formula → Formula → Option Formula} {f g expected : Formula}
    (hf : f.NamedIn names) (hg : g.NamedIn names)
    (hyield : ∀ {f g expected}, f.NamedIn names → g.NamedIn names →
      yield? f g = some expected → expected.NamedIn names)
    (h : (yield? f g).or (yield? g f) = some expected) : expected.NamedIn names := by
  rcases yields_of_or h with hfg | hgf
  · exact hyield hf hg hfg
  · exact hyield hg hf hgf

theorem tollendoPonens_failsIn (hc : c.NamedIn names) :
    FailsIn names (checkTollendoPonens c) := by
  refine hc.formula_bind 0 fun first hfirst => hc.formula_bind 1 fun second hsecond => ?_
  split
  · next expected hexpected =>
      refine hc.conclude (namedIn_of_yields hfirst hsecond ?_ hexpected)
      intro f g side hf hg hside
      obtain ⟨denied, -, rfl | rfl⟩ := eq_of_otherSide? hside
      · exact hf.2
      · exact hf.1
  · exact .error trivial

theorem impIntro_failsIn (hc : c.NamedIn names) : FailsIn names (checkImpIntro c) :=
  hc.hypothetical_bind 0 fun _ hb => hc.conclude ⟨hb.first, hb.last⟩

theorem impElim_failsIn (hc : c.NamedIn names) : FailsIn names (checkImpElim c) := by
  refine hc.formula_bind 0 fun first hfirst => hc.formula_bind 1 fun second hsecond => ?_
  split
  · next expected hexpected =>
      refine hc.conclude (namedIn_of_yields hfirst hsecond ?_ hexpected)
      intro f g right hf hg hright
      rw [eq_of_consequent? hright] at hf
      exact hf.2
  · split
    · exact .error ⟨hfirst.1, hsecond⟩
    · exact .error ⟨hsecond.1, hfirst⟩
    · exact .error hfirst

theorem modusTollens_failsIn (hc : c.NamedIn names) : FailsIn names (checkModusTollens c) := by
  refine hc.formula_bind 0 fun first hfirst => hc.formula_bind 1 fun second hsecond => ?_
  split
  · next expected hexpected =>
      refine hc.conclude (namedIn_of_yields hfirst hsecond ?_ hexpected)
      intro f g denial hf hg hdenial
      obtain ⟨left, right, rfl, -, rfl⟩ := eq_of_deniedAntecedent? hdenial
      exact hf.1
  · exact .error trivial

theorem negIntro_failsIn (hc : c.NamedIn names) : FailsIn names (checkNegIntro c) := by
  refine hc.hypothetical_bind 0 fun b hb => ?_
  exact .ite (fun _ => .error hb.last) fun _ => hc.conclude hb.first

theorem negElim_failsIn (hc : c.NamedIn names) : FailsIn names (checkNegElim c) := by
  refine .ite (fun _ => .error trivial) fun _ => ?_
  refine hc.formula_bind 0 fun first hfirst => hc.formula_bind 1 fun second hsecond => ?_
  exact .ite (fun _ => .ok) fun _ => .error ⟨hfirst, hsecond⟩

theorem doubleNegIntro_failsIn (hc : c.NamedIn names) : FailsIn names (checkDoubleNegIntro c) :=
  hc.formula_bind 0 fun _ hparent => hc.conclude hparent

theorem doubleNegElim_failsIn (hc : c.NamedIn names) : FailsIn names (checkDoubleNegElim c) := by
  refine hc.formula_bind 0 fun parent hparent => ?_
  split
  · exact hc.conclude hparent
  · exact .error hparent

theorem falsityElim_failsIn (hc : c.NamedIn names) : FailsIn names (checkFalsityElim c) := by
  refine hc.formula_bind 0 fun parent hparent => ?_
  split
  · exact .ok
  · exact .error hparent

/-! ### Rules for quantifiers and identity. -/

theorem allIntro_failsIn (hc : c.NamedIn names) : FailsIn names (checkAllIntro c) := by
  refine hc.subproof_bind 0 fun b hb => ?_
  split
  · exact .error trivial
  · next flag hflag =>
      have hz : flag ∈ names := hb.flag flag hflag
      refine .ite (fun _ => .error trivial) fun _ => .ite (fun _ => .error hz) fun _ => ?_
      split
      · refine .ite (fun _ => .error hz) fun _ => .ite (fun _ => .ok) fun _ => ?_
        exact .error ⟨hc.result, hb.last⟩
      · exact .error trivial

theorem checkBound_failsIn {note : Substitution} (hnote : note.NamedIn names) {bound : Name}
    (hbound : bound ∈ names) : FailsIn names (checkBound note bound) :=
  .ite (fun _ => .ok) fun _ => .error ⟨hnote.term, hnote.var, hbound⟩

theorem allElim_failsIn (hc : c.NamedIn names) : FailsIn names (checkAllElim c) := by
  refine hc.formula_bind 0 fun parent hparent => ?_
  split
  · next var body =>
      split
      · next note hnote =>
          have hnames := hc.note hnote
          refine FailsIn.bind (checkBound_failsIn hnames hparent.1) fun _ _ => ?_
          split
          · next expected hexpected =>
              exact hc.conclude (hparent.2.substitute hnames.term hexpected)
          · exact .error ⟨hparent, hc.result⟩
      · exact .ite (fun _ => .ok) fun _ => .error ⟨hparent, hc.result⟩
  · exact .error hparent

theorem exIntro_failsIn (hc : c.NamedIn names) : FailsIn names (checkExIntro c) := by
  refine hc.formula_bind 0 fun parent hparent => ?_
  split
  · next var body hresult =>
      have hbound : var ∈ names := by
        have hnames := hc.result
        rw [hresult] at hnames
        exact hnames.1
      split
      · next note hnote =>
          refine FailsIn.bind (checkBound_failsIn (hc.note hnote) hbound) fun _ _ => ?_
          exact .ite (fun _ => .ok) fun _ => .error ⟨hc.result, hparent⟩
      · exact .ite (fun _ => .ok) fun _ => .error ⟨hc.result, hparent⟩
  · exact .error trivial

theorem exElim_failsIn (hc : c.NamedIn names) : FailsIn names (checkExElim c) := by
  refine hc.formula_bind 0 fun parent hparent => ?_
  split
  · next var body =>
      refine hc.hypothetical_bind 1 fun b hb => ?_
      split
      · exact .error trivial
      · next flag hflag =>
          have hz : flag ∈ names := hb.flag flag hflag
          refine .ite (fun _ => .error hz) fun _ => ?_
          split
          · exact .error ⟨hparent, hb.first⟩
          · next expected hexpected =>
              have hinstance := hparent.2.substitute hz hexpected
              refine .ite (fun _ => .error ⟨hinstance, hb.first⟩) fun _ => ?_
              exact .ite (fun _ => .error hz) fun _ => hc.conclude hb.last
  · exact .error hparent

theorem identityIntro_failsIn : FailsIn names (checkIdentityIntro c) := by
  unfold checkIdentityIntro
  split
  · exact .ite (fun _ => .ok) fun _ => .error trivial
  · exact .error trivial

theorem identityElim_failsIn (hc : c.NamedIn names) : FailsIn names (checkIdentityElim c) := by
  refine hc.formula_bind 0 fun identity hidentity => ?_
  split
  · exact .error hidentity
  · exact hc.formula_bind 1 fun _ _ => .ite (fun _ => .ok) fun _ => .error trivial

/-- **A rule complains of nothing but what it looks at**: every name in the
violation is among those of the line and of what it cites. -/
theorem namedIn_of_check (hc : c.NamedIn names) :
    ∀ rule : Rule, FailsIn names (rule.check c)
  | premiss => .ite (fun _ => .error trivial) fun _ => .ok
  | assumption => .ok
  | conjIntro => conjIntro_failsIn hc
  | conjElimLeft => conjElim_failsIn .left hc
  | conjElimRight => conjElim_failsIn .right hc
  | disjIntroLeft => disjIntro_failsIn .left hc
  | disjIntroRight => disjIntro_failsIn .right hc
  | disjElim => disjElim_failsIn hc
  | tollendoPonens => tollendoPonens_failsIn hc
  | impIntro => impIntro_failsIn hc
  | impElim => impElim_failsIn hc
  | modusTollens => modusTollens_failsIn hc
  | negIntro => negIntro_failsIn hc
  | negElim => negElim_failsIn hc
  | doubleNegIntro => doubleNegIntro_failsIn hc
  | doubleNegElim => doubleNegElim_failsIn hc
  | falsityElim => falsityElim_failsIn hc
  | allIntro => allIntro_failsIn hc
  | allElim => allElim_failsIn hc
  | exIntro => exIntro_failsIn hc
  | exElim => exElim_failsIn hc
  | identityIntro => identityIntro_failsIn
  | identityElim => identityElim_failsIn hc

end Rule

/-! ## §3. One line. -/

/-- The names that a line brings in are among `names`: its flag, those in its
notes, and those of its formula, or the token that its formula stops at. -/
structure ProofLine.NamedIn (names : Set Name) (line : ProofLine) : Prop where
  flag : ∀ z ∈ line.flag, z ∈ names
  note : ∀ cited, some cited ∈ line.citations → ∀ note ∈ cited.substitution?, note.NamedIn names
  formula : ∀ options f, ProofState.readFormula options line = .ok f → f.NamedIn names
  complaint : ∀ options e, ProofState.readFormula options line = .error e →
    ∀ text ∈ e.found, text ∈ names

/-- The names in a cause are among `names`. -/
def FailureCause.NamedIn (names : Set Name) : FailureCause → Prop
  | unreadable e => ∀ text ∈ e.found, text ∈ names
  | violation v => v.NamedIn names
  | unknownRule | lineOrder _ | duplicate | misplaced _ => True

/-- The names of the formulas on record, and the flags of the subproofs, are among
`names`. -/
structure ProofState.NamedIn (names : Set Name) (s : ProofState) : Prop where
  formula : ∀ entry ∈ s.formulas, entry.2.NamedIn names
  flag : ∀ subproof ∈ s.scopes.subproofs, ∀ z ∈ subproof.flag, z ∈ names

namespace ProofState

variable {names : Set Name} {options : CheckOptions} {s s' : ProofState} {line : ProofLine}

theorem NamedIn.empty : ProofState.empty.NamedIn names :=
  ⟨by simp [ProofState.empty], by simp [ProofState.empty, Scopes.empty]⟩

/-- The formula on record for a line has no other names. -/
theorem NamedIn.formula? (hs : s.NamedIn names) {n : Nat} {f : Formula}
    (h : s.formula? n = some f) : f.NamedIn names := hs.formula _ (mem_of_lookup h)

/-- A line that is placed brings in its flag at most. -/
theorem NamedIn.placed (hs : s.NamedIn names) (hline : line.NamedIn names) {placed : Placed}
    (h : s.place options line = .ok placed) : placed.state.NamedIn names := by
  obtain ⟨-, -, -, henter, hstate⟩ := place_eq_ok h
  rw [hstate]
  refine ⟨hs.formula, ?_⟩
  rw [(Scopes.fits_of_enter henter).2]
  unfold Scopes.entered
  split
  · intro subproof hmem
    rcases List.mem_append.mp hmem with hold | hnew
    · exact hs.flag subproof hold
    · rw [List.mem_singleton.mp hnew]
      exact hline.flag
  · exact hs.flag

theorem NamedIn.accept (hs : s.NamedIn names) (n : Nat) {f : Formula} (hf : f.NamedIn names) :
    (s.accept n f).NamedIn names := by
  constructor
  · intro entry hentry
    rcases List.mem_cons.mp hentry with rfl | hold
    · exact hf
    · exact hs.formula entry hold
  · intro subproof hmem
    -- A record changes no flag.
    obtain ⟨id, hid⟩ := List.mem_iff_getElem?.mp hmem
    rw [ProofState.accept, Scopes.record_getElem?, Option.map_eq_some_iff] at hid
    obtain ⟨old, hold, rfl⟩ := hid
    have hflag := hs.flag old (List.mem_of_getElem? hold)
    split
    · exact hflag
    · exact hflag

/-- What a line looks at has names of the record and of the line. -/
theorem NamedIn.context (hs : s.NamedIn names) (hline : line.NamedIn names) {f : Formula}
    (hf : f.NamedIn names) : (s.context line f).NamedIn names where
  result := hf
  formula h := by
    obtain ⟨cited, -, -, hformula⟩ := cites_iff.mp h
    exact hs.formula? hformula
  subproof h := by
    obtain ⟨first, last, subproof, -, hclosed, hfirst, hlast, hflag, -⟩ := citesSubproof_iff.mp h
    obtain ⟨id, -, hid, -⟩ := Scopes.closed?_eq_some_iff.mp hclosed
    refine ⟨hs.formula? hfirst, hs.formula? hlast, ?_⟩
    rw [hflag]
    exact hs.flag subproof (List.mem_of_getElem? hid)
  note {index note} h := by
    rw [citedAt_context] at h
    cases hpiece : line.citations[index]?.join with
    | none =>
        rw [hpiece] at h
        exact absurd h (by simp [cite, Cited.nothing])
    | some cited =>
        rw [hpiece] at h
        have hmem : some cited ∈ line.citations :=
          List.mem_of_getElem? (Option.join_eq_some_iff.mp hpiece)
        refine hline.note cited hmem note ?_
        cases cited with
        | line number substitution => exact h
        | subproof first last => exact absurd h (by simp [cite])

/-- **A step brings in the names of its line only.** -/
theorem NamedIn.step (hs : s.NamedIn names) (hline : line.NamedIn names)
    (h : s.step options line = .ok s') : s'.NamedIn names := by
  obtain ⟨t, rfl, rfl, rfl⟩ := exists_accepted_of_step h
  exact (hs.placed hline t.place_eq).accept _
    (hline.formula options _ (place_eq_ok t.place_eq).2.1)

/-- **A step that fails complains of nothing but names of the record and of its
line.** -/
theorem NamedIn.step_error (hs : s.NamedIn names) (hline : line.NamedIn names)
    {cause : FailureCause} {span : Span} (h : s.step options line = .error (cause, span)) :
    cause.NamedIn names := by
  rcases step_eq_error h with hplace | ⟨placed, v, hplace, hcheck, rfl, -⟩
  · rcases place_eq_error hplace with
      ⟨horder, -⟩ | ⟨e, he, rfl, -⟩ | ⟨-, rfl, -⟩ | ⟨fault, -, rfl, -⟩
    · rcases cause_of_checkOrder horder with rfl | ⟨previous, rfl⟩
      · trivial
      · trivial
    · exact hline.complaint options e he
    · trivial
    · trivial
  · have hf := hline.formula options _ (place_eq_ok hplace).2.1
    have hcontext := (hs.placed hline hplace).context hline hf
    exact Rule.namedIn_of_check hcontext _ v hcheck

/-! ## §4. Any number of lines. -/

/-- **The names in a state are those of the lines that led to it.** -/
theorem NamedIn.runFrom {lines : List ProofLine} (hlines : ∀ line ∈ lines, line.NamedIn names)
    (hs : s.NamedIn names) {index : Nat} (h : ProofState.runFrom options s index lines = .ok s') :
    s'.NamedIn names :=
  runFrom_induction (fun line hline _ _ ht hstep => ht.step (hlines line hline) hstep) hs h

/-- **The names in the failure of a run are those of its lines.** -/
theorem NamedIn.runFrom_error {lines : List ProofLine}
    (hlines : ∀ line ∈ lines, line.NamedIn names) (hs : s.NamedIn names) {index : Nat}
    {failure : CheckFailure} (h : ProofState.runFrom options s index lines = .error failure) :
    failure.cause.NamedIn names ∧ ∃ line ∈ lines, failure.ruleText = line.ruleText := by
  obtain ⟨before, line, after, t, cause, span, rfl, hbefore, hrefused, rfl⟩ :=
    runFrom_eq_error_iff.mp h
  have hmem : line ∈ before ++ line :: after := List.mem_append_right before List.mem_cons_self
  have ht := hs.runFrom (fun l hl => hlines l (List.mem_append_left _ hl)) hbefore
  exact ⟨ht.step_error (hlines line hmem) hrefused, line, hmem, rfl⟩

end ProofState

end NaturalDeduction
