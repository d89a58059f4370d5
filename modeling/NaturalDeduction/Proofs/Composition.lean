/-
  NaturalDeduction.Proofs.Composition
  ───────────────────────────────────
  **ACCEPTED PROOFS COMPOSE.**

  A second proof is put behind a first one.  Its lines have greater numbers, so
  none of its citations leads astray; its subproofs get the numbers after those
  of the first proof, and its first line closes whatever the first proof left
  open.  What a line of it can see in addition are the lines of the first proof
  at depth 0, and these matter to nothing but the flags.  Main statements:

    • `Rule.Licenses.mono` — a rule stays licensed when more can be cited,
    • `Scopes.entered_behind`, `Scopes.record_behind` — the subproofs of the
      second proof open and close as they do when it stands alone,
    • `ProofState.step_behind` — so its lines are accepted one by one,
    • `check_append` — and so both proofs together are accepted.
-/
import NaturalDeduction.Proofs.Hypotheses
import NaturalDeduction.Proofs.RuleCompleteness

namespace NaturalDeduction

/-! ## §1. Rules with more to cite. -/

/-- Whatever the first citation leads to, the second leads to as well. -/
structure Cited.Within (a b : Cited) : Prop where
  formula : ∀ f, a.formula? = some f → b.formula? = some f
  subproof : ∀ p, a.subproof? = some p → b.subproof? = some p
  substitution : b.substitution? = a.substitution?

/-- **A rule that is licensed stays licensed when more can be cited.** -/
theorem Rule.Licenses.mono {c : Context} {cited : List Cited}
    (h : ∀ index, (c.citedAt index).Within (({ c with cited } : Context).citedAt index))
    {rule : Rule} (hl : rule.Licenses c) : rule.Licenses { c with cited } := by
  have cites : ∀ {index f}, c.Cites index f → ({ c with cited } : Context).Cites index f :=
    fun {index f} hf => (h index).formula f hf
  have both : ∀ {f g}, c.CitesBoth f g → ({ c with cited } : Context).CitesBoth f g := by
    rintro f g (⟨hf, hg⟩ | ⟨hg, hf⟩)
    · exact Or.inl ⟨cites hf, cites hg⟩
    · exact Or.inr ⟨cites hg, cites hf⟩
  have subproof : ∀ {index b}, c.CitesSubproof index b →
      ({ c with cited } : Context).CitesSubproof index b :=
    fun {index b} hb => (h index).subproof b hb
  have case : ∀ {index f g}, c.CitesCase index f g →
      ({ c with cited } : Context).CitesCase index f g := by
    rintro index f g ⟨b, hb, hrest⟩
    exact ⟨b, subproof hb, hrest⟩
  have notes : ∀ {t x}, c.Notes t x → ({ c with cited } : Context).Notes t x := by
    intro t x hnotes note hnote
    rw [(h 0).substitution] at hnote
    exact hnotes note hnote
  cases rule with
  | premiss => exact hl
  | assumption => exact hl
  | conjIntro =>
      obtain ⟨f, g, hf, hg, hr⟩ := hl
      exact ⟨f, g, cites hf, cites hg, hr⟩
  | conjElimLeft =>
      obtain ⟨g, hg⟩ := hl
      exact ⟨g, cites hg⟩
  | conjElimRight =>
      obtain ⟨f, hf⟩ := hl
      exact ⟨f, cites hf⟩
  | disjIntroLeft =>
      obtain ⟨f, g, hf, hr⟩ := hl
      exact ⟨f, g, cites hf, hr⟩
  | disjIntroRight =>
      obtain ⟨f, g, hg, hr⟩ := hl
      exact ⟨f, g, cites hg, hr⟩
  | disjElim =>
      obtain ⟨f, g, hfg, hleft, hright⟩ := hl
      exact ⟨f, g, cites hfg, case hleft, case hright⟩
  | tollendoPonens =>
      obtain ⟨f, hboth⟩ := hl
      exact ⟨f, hboth.imp both both⟩
  | impIntro =>
      obtain ⟨f, g, hcase, hr⟩ := hl
      exact ⟨f, g, case hcase, hr⟩
  | impElim =>
      obtain ⟨f, hboth⟩ := hl
      exact ⟨f, both hboth⟩
  | modusTollens =>
      obtain ⟨f, g, hboth, hr⟩ := hl
      exact ⟨f, g, both hboth, hr⟩
  | negIntro =>
      obtain ⟨f, hcase, hr⟩ := hl
      exact ⟨f, case hcase, hr⟩
  | negElim =>
      obtain ⟨⟨f, hboth⟩, hr⟩ := hl
      exact ⟨⟨f, both hboth⟩, hr⟩
  | doubleNegIntro =>
      obtain ⟨f, hf, hr⟩ := hl
      exact ⟨f, cites hf, hr⟩
  | doubleNegElim => exact cites hl
  | falsityElim => exact cites hl
  | allIntro =>
      obtain ⟨x, f, z, b, hb, hrest⟩ := hl
      exact ⟨x, f, z, b, subproof hb, hrest⟩
  | allElim =>
      obtain ⟨x, f, t, hall, hnotes, hinstance⟩ := hl
      exact ⟨x, f, t, cites hall, notes hnotes, hinstance⟩
  | exIntro =>
      obtain ⟨x, f, t, g, hg, hr, hnotes, hinstance⟩ := hl
      exact ⟨x, f, t, g, cites hg, hr, notes hnotes, hinstance⟩
  | exElim =>
      obtain ⟨x, f, z, b, hex, hb, hrest⟩ := hl
      exact ⟨x, f, z, b, cites hex, subproof hb, hrest⟩
  | identityIntro => exact hl
  | identityElim =>
      obtain ⟨t, u, f, hidentity, hf, hbecomes⟩ := hl
      exact ⟨t, u, f, cites hidentity, cites hf, hbecomes⟩

/-! ## §2. The subproofs of a second proof. -/

namespace Scopes

/-- A path of the second proof, with the numbers that its subproofs get behind
those of the first. -/
def shift (base : Scopes) (path : Path) : Path := path.map (· + base.subproofs.length)

/-- The subproofs of both proofs, at a place of the second. -/
def behind (base s : Scopes) : Scopes where
  subproofs := base.subproofs ++ s.subproofs.map fun subproof =>
    { subproof with parent := base.shift subproof.parent }
  openedBy := s.openedBy.map (fun entry => (entry.1, entry.2 + base.subproofs.length))
    ++ base.openedBy
  path := base.shift s.path
  places := s.places.map (fun entry => (entry.1, base.shift entry.2)) ++ base.places

variable {base s : Scopes}

theorem shift_isPrefix_iff {p q : Path} : base.shift p <+: base.shift q ↔ p <+: q :=
  List.prefix_map_iff_of_injective fun _ _ h => Nat.add_right_cancel h

theorem mem_shift_iff {path : Path} {id : Nat} :
    id + base.subproofs.length ∈ base.shift path ↔ id ∈ path := by
  unfold shift
  rw [List.mem_map]
  constructor
  · rintro ⟨id', hid', heq⟩
    rwa [← Nat.add_right_cancel heq]
  · intro hid
    exact ⟨id, hid, rfl⟩

theorem behind_getElem? (base s : Scopes) (id : Nat) :
    (base.behind s).subproofs[id + base.subproofs.length]? = (s.subproofs[id]?).map fun subproof =>
      { subproof with parent := base.shift subproof.parent } := by
  show (base.subproofs ++ s.subproofs.map _)[id + base.subproofs.length]? = _
  rw [List.getElem?_append_right (by omega), Nat.add_sub_cancel, List.getElem?_map]

/-- A look-up finds what the second proof has, else what the first has. -/
theorem lookup_behind {β : Type} (g : β → β) (l l' : List (Nat × β)) (n : Nat) :
    (l.map (fun entry => (entry.1, g entry.2)) ++ l').lookup n
      = ((l.lookup n).map g).or (l'.lookup n) := by
  rw [List.lookup_append]
  congr 1
  induction l with
  | nil => rfl
  | cons entry l ih =>
      rw [List.map_cons, List.lookup_cons, List.lookup_cons, ih]
      split
      · rfl
      · rfl

/-- What can be seen from a path of the second proof can still be seen. -/
theorem isVisibleFrom_behind {path : Path} {n : Nat} {place : Path}
    (h : s.places.lookup n = some place) :
    (base.behind s).isVisibleFrom (base.shift path) n = s.isVisibleFrom path n := by
  unfold isVisibleFrom
  show ((s.places.map _ ++ base.places).lookup n).any _ = _
  rw [lookup_behind, h]
  show (base.shift place).isPrefixOf (base.shift path) = place.isPrefixOf path
  rw [Bool.eq_iff_iff, List.isPrefixOf_iff_prefix, List.isPrefixOf_iff_prefix, shift_isPrefix_iff]

theorem isVisible_behind {n : Nat} (h : s.isVisible n = true) :
    (base.behind s).isVisible n = true := by
  obtain ⟨place, hplace, -⟩ := (Option.any_eq_true _ _).mp h
  show (base.behind s).isVisibleFrom (base.shift s.path) n = true
  rw [isVisibleFrom_behind hplace]
  exact h

/-- **A subproof that can be cited in the second proof alone can still be
cited.** -/
theorem closed?_behind {first last : Nat} {subproof : Subproof}
    (h : s.closed? first last = some subproof) :
    (base.behind s).closed? first last
      = some { subproof with parent := base.shift subproof.parent } := by
  obtain ⟨id, hlookup, hid, hclosed, hparent, hlast⟩ := closed?_eq_some_iff.mp h
  refine closed?_eq_some_iff.mpr ⟨id + base.subproofs.length, ?_, ?_, ?_, ?_, hlast⟩
  · show (s.openedBy.map _ ++ base.openedBy).lookup first = _
    rw [lookup_behind (· + base.subproofs.length), hlookup]
    rfl
  · rw [behind_getElem?, hid]
    rfl
  · exact fun hmem => hclosed (mem_shift_iff.mp hmem)
  · exact shift_isPrefix_iff.mpr hparent

/-! ## §3. Entering and recording a line of the second proof. -/

variable {a b : Set Nat} {known known₁ known₂ : Nat → Option Formula}

/-- A look-up under a number that no entry has finds nothing. -/
theorem lookup_eq_none_of_keys {β : Type} {l : List (Nat × β)} (hl : ∀ entry ∈ l, entry.1 ∈ b)
    {n : Nat} (hn : n ∉ b) : l.lookup n = none := by
  refine List.lookup_eq_none_iff.mpr fun entry hentry => ?_
  have hne : n ≠ entry.1 := fun heq => hn (heq ▸ hl entry hentry)
  simpa using hne

/-- The paths of the second proof name no subproof of the first. -/
theorem isPrefix_shift_iff {place : Path} (hplace : ∀ id ∈ place, id < base.subproofs.length)
    (path : Path) : place <+: base.shift path ↔ place <+: [] := by
  rw [List.prefix_nil]
  constructor
  · intro h
    refine List.eq_nil_iff_forall_not_mem.mpr fun id hid => ?_
    obtain ⟨id', -, rfl⟩ := List.mem_map.mp (h.mem hid)
    have hlt := hplace _ hid
    omega
  · rintro rfl
    exact List.nil_prefix

/-- A line of the first proof can be seen from the second exactly if it can be
seen from outside all subproofs. -/
theorem isVisibleFrom_behind_base (hb : s.NumberedIn b)
    (hbase : ∀ entry ∈ base.places, ∀ id ∈ entry.2, id < base.subproofs.length) {n : Nat}
    (hn : n ∉ b) (path : Path) :
    (base.behind s).isVisibleFrom (base.shift path) n = base.isVisibleFrom [] n := by
  unfold isVisibleFrom
  show ((s.places.map _ ++ base.places).lookup n).any _ = _
  rw [lookup_behind, lookup_eq_none_of_keys hb.places hn]
  cases hplace : base.places.lookup n with
  | none => rfl
  | some place =>
      show place.isPrefixOf (base.shift path) = place.isPrefixOf []
      rw [Bool.eq_iff_iff, List.isPrefixOf_iff_prefix, List.isPrefixOf_iff_prefix]
      exact isPrefix_shift_iff (hbase _ (mem_of_lookup hplace)) path

/-- **A name is fresh in the second proof** exactly if it is when this stands
alone, and does not occur in the first proof outside its subproofs. -/
theorem isFreshAt_behind (ha : base.NumberedIn a) (hb : s.NumberedIn b) (hab : ∀ n ∈ a, n ∉ b)
    (hbase : ∀ entry ∈ base.places, ∀ id ∈ entry.2, id < base.subproofs.length)
    (hknown₁ : ∀ n ∈ a, known n = known₁ n) (hknown₂ : ∀ n ∈ b, known n = known₂ n)
    (path : Path) (z : Name) :
    (base.behind s).isFreshAt known (base.shift path) z
      = (s.isFreshAt known₂ path z && base.isFreshAt known₁ [] z) := by
  show (s.places.map _ ++ base.places).all _ = _
  rw [List.all_append, List.all_map]
  congr 1
  · unfold isFreshAt
    rw [Bool.eq_iff_iff, List.all_eq_true, List.all_eq_true]
    refine forall₂_congr fun entry hentry => ?_
    obtain ⟨place, hplace⟩ : ∃ place, s.places.lookup entry.1 = some place := by
      rw [← Option.isSome_iff_exists, List.lookup_isSome_iff]
      exact ⟨entry, hentry, by simp⟩
    show (!((base.behind s).isVisibleFrom (base.shift path) entry.1 && _)) = true ↔ _
    rw [isVisibleFrom_behind hplace, hknown₂ _ (hb.places entry hentry)]
  · unfold isFreshAt
    rw [Bool.eq_iff_iff, List.all_eq_true, List.all_eq_true]
    refine forall₂_congr fun entry hentry => ?_
    have hn : entry.1 ∈ a := ha.places entry hentry
    show (!((base.behind s).isVisibleFrom (base.shift path) entry.1 && _)) = true ↔ _
    rw [isVisibleFrom_behind_base hb hbase (hab _ hn), hknown₁ _ hn]

/-- **A line of the second proof opens and closes the subproofs that it opens
and closes when the proof stands alone**, if its flag does not occur in the
first proof outside the subproofs. -/
theorem entered_behind (ha : base.NumberedIn a) (hb : s.NumberedIn b) (hab : ∀ n ∈ a, n ∉ b)
    (hbase : ∀ entry ∈ base.places, ∀ id ∈ entry.2, id < base.subproofs.length)
    (hknown₁ : ∀ n ∈ a, known n = known₁ n) (hknown₂ : ∀ n ∈ b, known n = known₂ n)
    {entry : Entry} (hflag : ∀ z ∈ entry.flag, base.isFreshAt known₁ [] z = true) :
    (base.behind s).entered known entry = base.behind (s.entered known₂ entry) := by
  have htake : ∀ n, (base.behind s).path.take n = base.shift (s.path.take n) :=
    fun n => (List.map_take ..).symm
  unfold entered
  by_cases hopens : entry.opens = true
  · rw [if_pos hopens, if_pos hopens, htake]
    have hfresh : entry.flag.all
          ((base.behind s).isFreshAt known (base.shift (s.path.take (entry.depth - 1))))
        = entry.flag.all (s.isFreshAt known₂ (s.path.take (entry.depth - 1))) := by
      cases hz : entry.flag with
      | none => rfl
      | some z =>
          show isFreshAt _ _ _ z = isFreshAt _ _ _ z
          rw [isFreshAt_behind ha hb hab hbase hknown₁ hknown₂, hflag z hz, Bool.and_true]
    unfold openAt
    rw [hfresh]
    simp [behind, shift, Nat.add_comm]
  · rw [if_neg hopens, if_neg hopens, htake]
    rfl

theorem record_behind (base s : Scopes) (n : Nat) :
    (base.behind s).record n = base.behind (s.record n) := by
  have hlast : (base.behind s).path.getLast? = s.path.getLast?.map (· + base.subproofs.length) :=
    List.getLast?_map
  have hsubproofs : ((base.behind s).record n).subproofs
      = (base.behind (s.record n)).subproofs := by
    refine List.ext_getElem? fun id => ?_
    by_cases hid : id < base.subproofs.length
    · -- A subproof of the first proof is not the innermost open one.
      have hother : (base.behind s).path.getLast? ≠ some id := by
        rw [hlast]
        intro heq
        obtain ⟨id', -, rfl⟩ := Option.map_eq_some_iff.mp heq
        omega
      rw [record_getElem?]
      simp only [if_neg hother, Option.map_id']
      show (base.subproofs ++ _)[id]? = (base.subproofs ++ _)[id]?
      rw [List.getElem?_append_left hid, List.getElem?_append_left hid]
    · obtain ⟨id, rfl⟩ : ∃ id', id = id' + base.subproofs.length :=
        ⟨id - base.subproofs.length, by omega⟩
      have hsame : (base.behind s).path.getLast? = some (id + base.subproofs.length)
          ↔ s.path.getLast? = some id := by
        rw [hlast]
        cases s.path.getLast? with
        | none => simp
        | some top => simp
      rw [record_getElem?, behind_getElem?, behind_getElem?, record_getElem?, Option.map_map,
        Option.map_map]
      congr 1
      funext subproof
      simp only [Function.comp, hsame]
      split
      · rfl
      · rfl
  exact (Scopes.mk.injEq ..).mpr ⟨hsubproofs, rfl, rfl, rfl⟩

/-- A line that fits outside all subproofs fits anywhere, -/
theorem fits_of_fits_outside {entry : Entry} (h : fault? 0 entry = none) (current : Nat) :
    fault? current entry = none := by
  refine fault?_eq_none_iff.mpr ((fault?_eq_none_iff.mp h).imp ?_ ?_)
  · rintro ⟨hopens, hpos, hle⟩
    exact ⟨hopens, hpos, by omega⟩
  · rintro ⟨hopens, hle⟩
    exact ⟨hopens, by omega⟩

/-- and closes whatever is open. -/
theorem entered_outside {entry : Entry} (h : fault? 0 entry = none)
    (known : Nat → Option Formula) (s : Scopes) :
    s.entered known entry = ({ s with path := [] } : Scopes).entered known entry := by
  unfold entered
  rcases fault?_eq_none_iff.mp h with ⟨hopens, hpos, hle⟩ | ⟨hopens, hle⟩
  · have hdepth : entry.depth - 1 = 0 := by omega
    rw [if_pos hopens, if_pos hopens, hdepth]
    rfl
  · have hdepth : entry.depth = 0 := by omega
    rw [if_neg (by simp [hopens]), if_neg (by simp [hopens]), hdepth]
    rfl

theorem behind_empty (base : Scopes) : base.behind empty = { base with path := [] } := by
  show Scopes.mk (base.subproofs ++ []) base.openedBy [] base.places = _
  rw [List.append_nil]

end Scopes

/-! ## §4. The lines of a second proof. -/

/-- The lines of one proof behind those of another. -/
def VerifiedProof.followedBy (proof₁ proof₂ : VerifiedProof) : VerifiedProof :=
  ⟨proof₂.formulas ++ proof₁.formulas, proof₁.order ++ proof₂.order⟩

namespace ProofState

/-- The lines of both proofs, at a place of the second. -/
def behind (base s : ProofState) : ProofState :=
  ⟨s.formulas ++ base.formulas, base.order ++ s.order, s.lastLine.or base.lastLine,
    base.scopes.behind s.scopes⟩

/-- What a second proof relies on: its numbers are greater than those of the
first, and the first has got its subproofs in order. -/
structure Precedes (a b : Set Nat) (base : ProofState) : Prop where
  numbered : base.NumberedIn a
  lt : ∀ n ∈ a, ∀ m ∈ b, n < m
  places : ∀ entry ∈ base.scopes.places, ∀ id ∈ entry.2, id < base.scopes.subproofs.length

variable {a b : Set Nat} {base s s' : ProofState} {options : CheckOptions} {line : ProofLine}

theorem Precedes.not_mem (hbase : base.Precedes a b) {n : Nat} (hn : n ∈ a) : n ∉ b :=
  fun hb => Nat.lt_irrefl n (hbase.lt n hn n hb)

theorem Precedes.not_mem_base (hbase : base.Precedes a b) {n : Nat} (hn : n ∈ b) : n ∉ a :=
  fun ha => hbase.not_mem ha hn

theorem formula?_behind (base s : ProofState) (n : Nat) :
    (base.behind s).formula? n = (s.formula? n).or (base.formula? n) := List.lookup_append

theorem formula?_behind_base (hb : s.NumberedIn b) {n : Nat} (hn : n ∉ b) :
    (base.behind s).formula? n = base.formula? n := by
  have hnone : s.formula? n = none := Scopes.lookup_eq_none_of_keys hb.formulas hn
  rw [formula?_behind, hnone, Option.none_or]

theorem formula?_behind_of_mem (hbase : base.Precedes a b) {n : Nat} (hn : n ∈ b) :
    (base.behind s).formula? n = s.formula? n := by
  have hnone : base.formula? n = none :=
    Scopes.lookup_eq_none_of_keys hbase.numbered.formulas (hbase.not_mem_base hn)
  rw [formula?_behind, hnone, Option.or_none]

/-- A formula of the second proof is found behind the first. -/
theorem formula?_behind_of_some (hbase : base.Precedes a b) (hb : s.NumberedIn b) {n : Nat}
    {f : Formula} (h : s.formula? n = some f) : (base.behind s).formula? n = some f := by
  rw [formula?_behind_of_mem hbase (hb.formulas _ (mem_of_lookup h)), h]

/-- **A citation leads to what it leads to in the second proof alone.** -/
theorem cite_behind (hbase : base.Precedes a b) (hb : s.NumberedIn b)
    (piece : Option Citation) : (s.cite piece).Within ((base.behind s).cite piece) := by
  have hvisible : ∀ n f, s.visible? n = some f → (base.behind s).visible? n = some f := by
    intro n f h
    obtain ⟨hvisible, hf⟩ := visible?_eq_some_iff.mp h
    exact visible?_eq_some_iff.mpr
      ⟨Scopes.isVisible_behind hvisible, formula?_behind_of_some hbase hb hf⟩
  have hsubproof : ∀ first last p, s.subproof? first last = some p →
      (base.behind s).subproof? first last = some p := by
    intro first last p h
    obtain ⟨subproof, hclosed, hfirst, hlast, hrest⟩ := subproof?_eq_some_iff.mp h
    exact subproof?_eq_some_iff.mpr ⟨_, Scopes.closed?_behind hclosed,
      formula?_behind_of_some hbase hb hfirst, formula?_behind_of_some hbase hb hlast, hrest⟩
  cases piece with
  | none => exact ⟨fun f h => h, fun p h => h, rfl⟩
  | some cited =>
      cases cited with
      | line number substitution => exact ⟨hvisible number, fun p h => h, rfl⟩
      | subproof first last => exact ⟨hvisible first, hsubproof first last, rfl⟩

/-- A number in order in the second proof alone is in order behind the first. -/
theorem checkOrder_behind (hbase : base.Precedes a b) (hn : line.number ∈ b)
    (h : checkOrder options s line = .ok ()) :
    checkOrder options (base.behind s) line = .ok () := by
  unfold checkOrder at h ⊢
  rw [formula?_behind_of_mem hbase hn]
  split at h
  · exact absurd h (by simp)
  · next hnew =>
      rw [if_neg hnew]
      split at h
      · next hstrict =>
          rw [if_pos hstrict]
          rw [show (base.behind s).lastLine = s.lastLine.or base.lastLine from rfl]
          cases hlast : s.lastLine with
          | some previous =>
              rw [hlast] at h
              exact h
          | none =>
              rw [Option.none_or]
              cases hbefore : base.lastLine with
              | none => rfl
              | some previous =>
                  have hlt := hbase.lt previous (hbase.numbered.lastLine previous hbefore) _ hn
                  exact if_neg (by omega)
      · next hstrict => rw [if_neg hstrict]

/-- **A line of the second proof is accepted behind the first.** -/
theorem step_behind (hbase : base.Precedes a b) (hb : s.NumberedIn b) (hn : line.number ∈ b)
    (hflag : ∀ z ∈ line.flag, base.scopes.isFreshAt base.formula? [] z = true)
    (h : s.step options line = .ok s') :
    (base.behind s).step options line = .ok (base.behind s') := by
  obtain ⟨t, rfl, rfl, rfl⟩ := exists_accepted_of_step h
  obtain ⟨horder, hread, hrule, henter, hplaced⟩ := place_eq_ok t.place_eq
  obtain ⟨hfits, hscopes⟩ := Scopes.fits_of_enter henter
  have hfits' : Scopes.fault? (base.behind t.before).scopes.path.length t.line.entry = none := by
    show Scopes.fault? (base.scopes.shift t.before.scopes.path).length t.line.entry = none
    rw [Scopes.shift, List.length_map]
    exact hfits
  have hentered :
      (base.behind t.before).scopes.entered (base.behind t.before).formula? t.line.entry
        = base.scopes.behind t.placed.state.scopes := by
    rw [hscopes]
    exact Scopes.entered_behind hbase.numbered.scopes hb.scopes (fun n => hbase.not_mem)
      hbase.places (fun n hn => formula?_behind_base hb (hbase.not_mem hn))
      (fun n hn => formula?_behind_of_mem hbase hn) hflag
  have hplace := place_of_read (checkOrder_behind hbase hn horder) hread hrule
  rw [hfits', hentered] at hplace
  have hstate : ({ base.behind t.before with
      scopes := base.scopes.behind t.placed.state.scopes } : ProofState)
        = base.behind t.placed.state := by
    rw [hplaced]
    rfl
  have hkeeps : t.placed.rule.check
      ((base.behind t.placed.state).context t.line t.placed.formula) = .ok () := by
    refine Rule.check_of_licenses (Rule.Licenses.mono ?_ t.licenses)
    intro index
    show ((t.placed.state.context t.line t.placed.formula).citedAt index).Within
      (((base.behind t.placed.state).context t.line t.placed.formula).citedAt index)
    rw [citedAt_context, citedAt_context]
    exact cite_behind hbase (hb.placed hn t.place_eq) _
  unfold step
  rw [hplace]
  dsimp only
  rw [hstate, hkeeps]
  show Except.ok ((base.behind t.placed.state).accept t.line.number t.placed.formula) = _
  unfold accept Accepted.after accept behind
  rw [Scopes.record_behind, List.append_assoc]
  rfl

/-- The lines of the second proof are accepted one after the other. -/
theorem runFrom_behind (hbase : base.Precedes a b) {lines : List ProofLine}
    (hlines : ∀ line ∈ lines, line.number ∈ b)
    (hflags : ∀ line ∈ lines, ∀ z ∈ line.flag, base.scopes.isFreshAt base.formula? [] z = true)
    (hb : s.NumberedIn b) {index : Nat} (h : runFrom options s index lines = .ok s')
    (index' : Nat) :
    runFrom options (base.behind s) index' lines = .ok (base.behind s') := by
  induction lines generalizing s index index' with
  | nil =>
      rw [runFrom, Except.ok.injEq] at h
      rw [runFrom, h]
  | cons line rest ih =>
      obtain ⟨t, hstep, hrest⟩ := runFrom_cons_eq_ok_iff.mp h
      have hn : line.number ∈ b := hlines line List.mem_cons_self
      refine runFrom_cons_eq_ok_iff.mpr ⟨base.behind t, ?_, ?_⟩
      · exact step_behind hbase hb hn (hflags line List.mem_cons_self) hstep
      · exact ih (fun l hl => hlines l (List.mem_cons_of_mem _ hl))
          (fun l hl => hflags l (List.mem_cons_of_mem _ hl)) (hb.step hn hstep) hrest (index' + 1)

theorem behind_empty (base : ProofState) :
    base.behind .empty = { base with scopes := { base.scopes with path := [] } } := by
  show (⟨base.formulas, base.order ++ [], base.lastLine, base.scopes.behind .empty⟩
    : ProofState) = _
  rw [List.append_nil, Scopes.behind_empty]

/-- **The first line of the second proof closes what the first proof left
open.** -/
theorem step_outside (h : ProofState.empty.step options line = .ok s') (base : ProofState) :
    base.step options line = (base.behind .empty).step options line := by
  obtain ⟨t, hbefore, rfl, -⟩ := exists_accepted_of_step h
  obtain ⟨-, hread, hrule, henter, -⟩ := place_eq_ok t.place_eq
  have hfits : Scopes.fault? 0 t.line.entry = none := by
    have hfits := (Scopes.fits_of_enter henter).1
    rw [hbefore] at hfits
    exact hfits
  have hplace : base.place options t.line = (base.behind .empty).place options t.line := by
    rw [behind_empty]
    cases horder : checkOrder options base t.line with
    | error cause =>
        have horder' : checkOrder options
            { base with scopes := { base.scopes with path := [] } } t.line
          = .error cause := horder
        unfold place
        rw [horder, horder']
    | ok u =>
        have horder' : checkOrder options
            { base with scopes := { base.scopes with path := [] } } t.line
          = .ok u := horder
        rw [place_of_read horder hread hrule, place_of_read horder' hread hrule,
          Scopes.fits_of_fits_outside hfits, Scopes.fits_of_fits_outside hfits,
          Scopes.entered_outside hfits]
        rfl
  unfold step
  rw [hplace]

/-- **A second proof is accepted from where the first one ends.** -/
theorem run_behind (hbase : base.Precedes a b) {lines : List ProofLine}
    (hlines : ∀ line ∈ lines, line.number ∈ b)
    (hflags : ∀ line ∈ lines, ∀ z ∈ line.flag, base.scopes.isFreshAt base.formula? [] z = true)
    (h : run options lines = .ok s) (index : Nat) :
    ∃ s', runFrom options base index lines = .ok s'
      ∧ s'.finish = base.finish.followedBy s.finish := by
  cases lines with
  | nil =>
      rw [run, runFrom, Except.ok.injEq] at h
      rw [← h]
      refine ⟨base, rfl, ?_⟩
      show base.finish = ⟨base.formulas, base.order ++ []⟩
      rw [List.append_nil]
      rfl
  | cons line rest =>
      obtain ⟨t, hstep, -⟩ := runFrom_cons_eq_ok_iff.mp h
      have hrun := runFrom_behind hbase hlines hflags .empty h index
      rw [runFrom, ← step_outside hstep] at hrun
      exact ⟨base.behind s, hrun, rfl⟩

/-- An accepted proof can stand before another with greater numbers. -/
theorem precedes_of_run {lines : List ProofLine} (ha : ∀ line ∈ lines, line.number ∈ a)
    (hab : ∀ n ∈ a, ∀ m ∈ b, n < m) (h : run options lines = .ok base) : base.Precedes a b := by
  obtain ⟨t, ht, -⟩ := exists_history_of_runFrom lines .start h
  refine ⟨NumberedIn.empty.runFrom ha h, hab, ?_⟩
  intro entry hentry
  rw [ht.walk.places_eq, List.mem_reverse, List.mem_map] at hentry
  obtain ⟨v, hv, rfl⟩ := hentry
  exact ht.walk.path_lt.1 v hv

/-- A name that occurs in no line at depth 0 is fresh outside all subproofs. -/
theorem isFreshAt_outside {lines : List ProofLine} (h : run options lines = .ok base) {z : Name}
    (hz : ∀ line ∈ lines, line.depth = 0 → ∀ f, base.formula? line.number = some f →
      f.occurs z = false) :
    base.scopes.isFreshAt base.formula? [] z = true := by
  obtain ⟨t, ht, hlines⟩ := exists_history_of_runFrom lines .start h
  rw [List.nil_append] at ht
  have hnodup : ((t.map Accepted.visit).map fun v => v.entry.number).Nodup := by
    rw [List.map_map]
    exact ht.nodup
  refine (ht.walk.isFreshAt_iff hnodup).mpr fun v hv hpath f hf => ?_
  have hdepth := ht.walk.length_path v hv
  rw [List.prefix_nil.mp hpath, List.length_nil] at hdepth
  obtain ⟨u, hu, rfl⟩ := List.mem_map.mp hv
  exact hz u.line (hlines ▸ List.mem_map_of_mem hu) hdepth.symm f hf

end ProofState

/-! ## §5. Two proofs. -/

/-- **Accepted proofs compose.**  If every number of the second proof is greater
than every number of the first, and no flag of the second occurs in a formula
of the first at depth 0, then both together are accepted, with the lines of the
one behind those of the other.  The first proof may end inside a subproof. -/
theorem check_append (options : CheckOptions) {lines₁ lines₂ : List ProofLine}
    {proof₁ proof₂ : VerifiedProof} (h₁ : check options lines₁ = .ok proof₁)
    (h₂ : check options lines₂ = .ok proof₂)
    (hnumbers : ∀ l₁ ∈ lines₁, ∀ l₂ ∈ lines₂, l₁.number < l₂.number)
    (hflags : ∀ l₁ ∈ lines₁, l₁.depth = 0 → ∀ f, proof₁.formula? l₁.number = some f →
      ∀ l₂ ∈ lines₂, ∀ z ∈ l₂.flag, f.occurs z = false) :
    check options (lines₁ ++ lines₂) = .ok (proof₁.followedBy proof₂)
      ∧ (proof₁.followedBy proof₂).lines = proof₁.lines ++ proof₂.lines := by
  obtain ⟨base, hrun₁, rfl⟩ := check_eq_ok h₁
  obtain ⟨s, hrun₂, rfl⟩ := check_eq_ok h₂
  have hbase : base.Precedes {n | ∃ l ∈ lines₁, l.number = n}
      {n | ∃ l ∈ lines₂, l.number = n} := by
    refine ProofState.precedes_of_run (fun l hl => ⟨l, hl, rfl⟩) ?_ hrun₁
    rintro n ⟨l₁, hl₁, rfl⟩ m ⟨l₂, hl₂, rfl⟩
    exact hnumbers l₁ hl₁ l₂ hl₂
  have hfresh : ∀ l₂ ∈ lines₂, ∀ z ∈ l₂.flag,
      base.scopes.isFreshAt base.formula? [] z = true := by
    intro l₂ hl₂ z hz
    exact ProofState.isFreshAt_outside hrun₁ fun l₁ hl₁ hdepth f hf =>
      hflags l₁ hl₁ hdepth f hf l₂ hl₂ z hz
  obtain ⟨s', hbehind, hfinish⟩ :=
    ProofState.run_behind hbase (fun l hl => ⟨l, hl, rfl⟩) hfresh hrun₂ (0 + lines₁.length)
  have hrun : ProofState.run options (lines₁ ++ lines₂) = .ok s' := by
    rw [ProofState.run, ProofState.runFrom_append hrun₁, hbehind]
  rw [← hfinish]
  refine ⟨?_, ?_⟩
  · unfold check
    rw [hrun]
  · have hformulas : s'.formulas = s.formulas ++ base.formulas :=
      congrArg VerifiedProof.formulas hfinish
    rw [(ProofState.InStep.empty.runFrom hrun).lines_finish,
      (ProofState.InStep.empty.runFrom hrun₁).lines_finish,
      (ProofState.InStep.empty.runFrom hrun₂).lines_finish, hformulas, List.reverse_append]

/-- The first proof ends two subproofs deep; the second opens a subproof for
every `z`, a name that the first has only inside its own, and cites it. -/
theorem check_append_open :
    check {} (proofLines "1. P -premiss :\n2. | a Q(z) -assumption :\n3. || R(z) -assumption :"
        ++ proofLines "4. | z z=z id-i :\n5. forall(x) x=x A-i : 4-4")
      = .ok (.followedBy
        ⟨[(3, .atom "R" ["z"]), (2, .atom "Q" ["z"]), (1, .atom "P" [])], [1, 2, 3]⟩
        ⟨[(5, .all "x" (.atom "=" ["x", "x"])), (4, .atom "=" ["z", "z"])], [4, 5]⟩) := by
  refine (check_append {} ?_ ?_ ?_ ?_).1
  · decide +kernel
  · decide +kernel
  · decide +kernel
  · decide +kernel

end NaturalDeduction
