/-
  NaturalDeduction.Proofs.TokenBoundaries
  ───────────────────────────────────────
  **A TEXT MAY BE CUT WHERE NO TOKEN IS CUT.**

  Whether a lexeme is one depends on what follows it: a rule name must not run
  on into a word, a dash before a letter starts a dashed word, and `|` before a
  dash is a turnstile.  A cut between two tokens takes nothing of that away.
  The reason is that the scan never halts inside an identifier or inside the
  word of a dashed word (`ComesTo.breaks`), and that every rule name ends as such
  a word does; so a cut can neither make a rule name nor break one.  Main
  statements:

    • `ruleName?_eq_some_iff` — no text starts with two rule names,
    • `recognised_of_lexeme?` — what each recogniser takes, and what it leaves,
    • `comesTo_of_uncut` — a scan halts wherever it cuts no token in two,
    • `scan_append_of_comesTo` — the tokens of a text that is cut at such a place
      are those of its two parts.
-/
import Mathlib.Data.List.TakeWhile
import NaturalDeduction.Proofs.Scanning

namespace NaturalDeduction

/-- Of two beginnings of a text, the one with fewer bytes is a beginning of the
other. -/
theorem isPrefix_of_byteLength_le {as bs text : List Char} (ha : as <+: text) (hb : bs <+: text)
    (hle : byteLength as ≤ byteLength bs) : as <+: bs := by
  rcases List.prefix_or_prefix_of_prefix ha hb with h | ⟨more, hmore⟩
  · exact h
  · -- The rest of the longer one has no bytes, so there is none.
    cases more with
    | nil =>
        rw [List.append_nil] at hmore
        subst hmore
        exact List.prefix_rfl
    | cons c more =>
        have hpos := c.utf8Size_pos
        rw [← hmore, byteLength_append, byteLength_cons] at hle
        omega

namespace Token

/-! ## §1. Rule names. -/

/-- A rule name stands at the start of a text, and no name character follows. -/
def StartsWithRule (name text : List Char) : Prop :=
  ∃ rest, text = name ++ rest ∧ Breaks rest

/-- **What the rule names are like**: a digit, a letter or a sign starts each of
them, an identifier could end it, and none is the beginning of another one. -/
theorem ruleNames_table {name : List Char} (h : name ∈ ruleNames) :
    (∀ c ∈ name.head?, c.isDigit = true ∨ isNameStart c = true ∨ (sign? c).isSome = true)
      ∧ isName (String.ofList (name.dropWhile (· != '-')).tail) = true
      ∧ ∀ other ∈ ruleNames, name <+: other → name = other := by
  have htable : (ruleNames.all fun name =>
      (name.head?.all fun c => c.isDigit || (isNameStart c || (sign? c).isSome))
        && (isName (String.ofList (name.dropWhile (· != '-')).tail)
          && ruleNames.all fun other => !name.isPrefixOf other || name == other)) = true := by
    decide
  have hname := List.all_eq_true.mp htable name h
  simp only [Bool.and_eq_true, Option.all_eq_true, Bool.or_eq_true, List.all_eq_true] at hname
  refine ⟨hname.1, hname.2.1, fun other hother hpre => ?_⟩
  have hpair := hname.2.2 other hother
  rw [List.isPrefixOf_iff_prefix.mpr hpre] at hpair
  simpa using hpair

/-- **No text starts with two rule names**, so it does not matter which one is
tried first. -/
theorem ruleName?_eq_some_iff {text name : List Char} :
    ruleName? text = some name ↔ name ∈ ruleNames ∧ StartsWithRule name text := by
  have hmatch : ∀ n : List Char,
      (n.isPrefixOf text && !(text.drop n.length).head?.any isNameRest) = true
        ↔ StartsWithRule n text := by
    intro n
    rw [Bool.and_eq_true, List.isPrefixOf_iff_prefix]
    constructor
    · rintro ⟨⟨rest, rfl⟩, hfollow⟩
      refine ⟨rest, rfl, fun c hc => ?_⟩
      rw [List.drop_left] at hfollow
      rw [Option.mem_def.mp hc] at hfollow
      simpa using hfollow
    · rintro ⟨rest, rfl, hbreaks⟩
      refine ⟨⟨rest, rfl⟩, ?_⟩
      rw [List.drop_left]
      cases rest with
      | nil => rfl
      | cons c rest => simp [hbreaks c rfl]
  constructor
  · intro h
    unfold ruleName? at h
    have hfound := List.find?_some h
    exact ⟨List.mem_of_find?_eq_some h, (hmatch name).mp hfound⟩
  · rintro ⟨hname, hstarts⟩
    cases hfound : ruleName? text with
    | none =>
        unfold ruleName? at hfound
        exact absurd ((hmatch name).mpr hstarts) (List.find?_eq_none.mp hfound name hname)
    | some found =>
        -- Both stand at the start of the text, so one is a beginning of the other.
        unfold ruleName? at hfound
        have hmem := List.mem_of_find?_eq_some hfound
        have htest := List.find?_some hfound
        obtain ⟨rest, htext, -⟩ := (hmatch found).mp htest
        obtain ⟨rest', htext', -⟩ := hstarts
        rcases List.prefix_or_prefix_of_prefix ⟨rest, htext.symm⟩ ⟨rest', htext'.symm⟩ with h | h
        · rw [(ruleNames_table hmem).2.2 name hname h]
        · rw [(ruleNames_table hname).2.2 found hmem h]

theorem isNameRest_of_isNameStart {c : Char} (h : isNameStart c = true) : isNameRest c = true := by
  unfold isNameStart at h
  rw [isNameRest, h]
  rfl

/-- An identifier is a letter and then name characters. -/
theorem isName_iff {w : List Char} : isName (String.ofList w) = true
    ↔ ∃ d ds, w = d :: ds ∧ isNameStart d = true ∧ ∀ c ∈ ds, isNameRest c = true := by
  unfold isName
  rw [String.toList_ofList]
  cases w with
  | nil => exact ⟨fun h => absurd h (by simp), fun ⟨d, ds, hcons, _⟩ => absurd hcons (by simp)⟩
  | cons d ds => simp

theorem ne_nil_of_isName {w : List Char} (h : isName (String.ofList w) = true) : w ≠ [] := by
  obtain ⟨d, ds, rfl, -, -⟩ := isName_iff.mp h
  exact List.cons_ne_nil d ds

/-- A beginning of an identifier is an identifier. -/
theorem isName_beginning {w₁ w₂ : List Char} (h : isName (String.ofList (w₁ ++ w₂)) = true)
    (hne : w₁ ≠ []) : isName (String.ofList w₁) = true := by
  obtain ⟨d, ds, hcons, hd, hds⟩ := isName_iff.mp h
  cases w₁ with
  | nil => exact absurd rfl hne
  | cons c w₁ =>
      obtain ⟨rfl, rfl⟩ := List.cons.inj hcons
      exact isName_iff.mpr ⟨c, w₁, rfl, hd, fun c hc => hds c (List.mem_append_left w₂ hc)⟩

/-- Every character of an identifier is a name character. -/
theorem isNameRest_of_mem {w : List Char} (h : isName (String.ofList w) = true) {c : Char}
    (hc : c ∈ w) : isNameRest c = true := by
  cases hrest : isNameRest c with
  | true => rfl
  | false => exact absurd (String.toList_ofList ▸ hc) (not_mem_of_isName h hrest)

/-- Every rule name ends in what could be an identifier. -/
theorem exists_isName_of_mem_ruleNames {name : List Char} (h : name ∈ ruleNames) :
    ∃ x w, name = x ++ w ∧ isName (String.ofList w) = true := by
  have hname := (ruleNames_table h).2.1
  refine ⟨name.takeWhile (· != '-') ++ (name.dropWhile (· != '-')).take 1, _, ?_, hname⟩
  rw [List.append_assoc, ← List.drop_one, List.take_append_drop, List.takeWhile_append_dropWhile]

/-! ## §2. One lexeme. -/

/-- **What starts no lexeme**: a blank, and a character that is no digit, no letter
and no sign. -/
theorem lexeme?_eq_none_iff {c : Char} {rest : List Char} :
    lexeme? (c :: rest) = none ↔ isBlank c = true
      ∨ (c.isDigit = false ∧ isNameStart c = false ∧ sign? c = none) := by
  constructor
  · intro h
    unfold lexeme? at h
    dsimp only at h
    split at h
    · next hblank => exact .inl hblank
    · split at h
      · exact absurd h (by simp)
      · split at h
        · exact absurd h (by simp)
        · split at h
          · exact absurd h (by simp)
          · split at h
            · exact absurd h (by simp)
            · next hdigit =>
                split at h
                · exact absurd h (by simp)
                · next hstart =>
                    have hsign : sign? c = none := Option.map_eq_none_iff.mp h
                    exact .inr ⟨by simpa using hdigit, by simpa using hstart, hsign⟩
  · rintro (hblank | ⟨hdigit, hstart, hsign⟩)
    · rw [lexeme?, if_pos hblank]
    · -- Whatever starts a lexeme of several characters is a lexeme itself.
      have hbar : c ≠ '|' := by rintro rfl; exact absurd hsign (by decide)
      have hdash : c ≠ '-' := by rintro rfl; exact absurd hsign (by decide)
      have hrule : ∀ name ∈ ruleNames, name.head? ≠ some c := by
        intro name hname hhead
        have hclass := (ruleNames_table hname).1 c hhead
        simp [hdigit, hstart, hsign] at hclass
      rw [lexeme?]
      simp [hbar, hdash, hdigit, hstart, hsign, ruleName?_of_head hrule rest]

/-- A character that starts no lexeme starts none whatever follows it, and it is
no letter. -/
theorem lexeme?_none_of_none {c : Char} {rest : List Char} (h : lexeme? (c :: rest) = none) :
    (∀ rest', lexeme? (c :: rest') = none) ∧ isNameStart c = false := by
  have hclass := lexeme?_eq_none_iff.mp h
  refine ⟨fun rest' => lexeme?_eq_none_iff.mpr hclass, ?_⟩
  rcases hclass with hblank | ⟨-, hstart, -⟩
  · rw [Bool.eq_false_iff]
    intro hstart
    rw [isBlank_of_isAlphabetic hstart] at hblank
    exact Bool.noConfusion hblank
  · exact hstart

/-- A run of one class that is followed by a character of the class is not the
whole run. -/
theorem breaks_of_takeWhile {p : Char → Bool} {run rest : List Char}
    (h : (run ++ rest).takeWhile p = run) : ∀ c ∈ rest.head?, p c = false := by
  intro c hc
  have hall : ∀ d ∈ run, p d = true := by
    intro d hd
    rw [← h] at hd
    exact List.mem_takeWhile_imp hd
  rw [List.takeWhile_append_of_pos hall] at h
  have hnil : rest.takeWhile p = [] := by simpa using h
  cases rest with
  | nil => exact absurd hc (by simp)
  | cons d rest =>
      rw [← Option.some.inj hc]
      rw [Bool.eq_false_iff]
      intro hd
      rw [List.takeWhile_cons_of_pos hd] at hnil
      exact absurd hnil (by simp)

/-- What each recogniser takes from the start of a text, and what it leaves. -/
inductive Recognised : Kind → (lexeme rest : List Char) → Prop
  | turnstile {rest : List Char} : Recognised .turnstile ['|', '-'] rest
  | ruleName {name rest : List Char} :
      name ∈ ruleNames → Breaks rest → Recognised .ruleName name rest
  | dashedWord {w rest : List Char} :
      isName (String.ofList w) = true → Breaks rest → Recognised .dashedWord ('-' :: w) rest
  | digits {digits rest : List Char} :
      (∀ c ∈ digits, c.isDigit = true) → (∀ c ∈ rest.head?, c.isDigit = false) →
      Recognised (if digits = ['0'] then .falsity else .number) digits rest
  | identifier {w rest : List Char} :
      isName (String.ofList w) = true → Breaks rest → Recognised .identifier w rest
  | sign {kind : Kind} {c : Char} {rest : List Char} :
      sign? c = some kind → ¬(c = '|' ∧ rest.head? = some '-') →
      ¬(c = '-' ∧ rest.head?.any isNameStart = true) → Recognised kind [c] rest

/-- The name characters at the start of a text are an identifier if a letter is
the first of them. -/
theorem isName_takeWhile {cs : List Char} (h : cs.head?.any isNameStart = true) :
    isName (String.ofList (cs.takeWhile isNameRest)) = true := by
  cases cs with
  | nil => exact absurd h (by simp)
  | cons d cs =>
      have hd : isNameStart d = true := h
      rw [List.takeWhile_cons_of_pos (isNameRest_of_isNameStart hd)]
      exact isName_cons hd

/-- **Every lexeme was taken by one of the recognisers.** -/
theorem recognised_of_lexeme? {lexeme rest : List Char} {kind : Kind}
    (h : lexeme? (lexeme ++ rest) = some (kind, lexeme)) : Recognised kind lexeme rest := by
  cases lexeme with
  | nil => exact absurd rfl (isPrefix_of_lexeme? h).2
  | cons c run =>
      rw [List.cons_append] at h
      unfold lexeme? at h
      dsimp only at h
      split at h
      · exact absurd h (by simp)
      · split at h
        · obtain ⟨rfl, hrun⟩ := Prod.mk.inj (Option.some.inj h)
          rw [← hrun]
          exact .turnstile
        · next hturnstile =>
            split at h
            · next name hname =>
                obtain ⟨rfl, rfl⟩ := Prod.mk.inj (Option.some.inj h)
                obtain ⟨hmem, rest', htext, hbreaks⟩ := ruleName?_eq_some_iff.mp hname
                rw [← List.cons_append, List.append_cancel_left_eq] at htext
                rw [htext]
                exact .ruleName hmem hbreaks
            · split at h
              · next hdash =>
                  obtain ⟨rfl, hrun⟩ := Prod.mk.inj (Option.some.inj h)
                  have hrun' := (List.cons.inj hrun).2
                  simp only [Bool.and_eq_true, decide_eq_true_eq] at hdash
                  obtain ⟨rfl, hstart⟩ := hdash
                  refine .dashedWord ?_ (breaks_of_takeWhile hrun')
                  rw [← hrun']
                  exact isName_takeWhile hstart
              · next hdash =>
                  split at h
                  · next hdigit =>
                      obtain ⟨rfl, hrun⟩ := Prod.mk.inj (Option.some.inj h)
                      rw [hrun]
                      refine .digits ?_ (breaks_of_takeWhile (List.cons.inj hrun).2)
                      intro d hd
                      rw [← hrun] at hd
                      rcases List.mem_cons.mp hd with rfl | hd
                      · exact hdigit
                      · exact List.mem_takeWhile_imp hd
                  · split at h
                    · next hstart =>
                        obtain ⟨rfl, hrun⟩ := Prod.mk.inj (Option.some.inj h)
                        have hrun' := (List.cons.inj hrun).2
                        refine .identifier ?_ (breaks_of_takeWhile hrun')
                        rw [← hrun']
                        exact isName_cons hstart
                    · obtain ⟨kind', hsign, heq⟩ := Option.map_eq_some_iff.mp h
                      obtain ⟨rfl, hrun⟩ := Prod.mk.inj heq
                      obtain rfl : run = [] := (List.cons.inj hrun).2.symm
                      simp only [Bool.and_eq_true, decide_eq_true_eq] at hturnstile hdash
                      exact .sign hsign hturnstile hdash

/-- **No lexeme ends inside an identifier**: behind one that ends in a beginning
of an identifier, no name character stands. -/
theorem Recognised.breaks {kind : Kind} {x w rest : List Char} (h : Recognised kind (x ++ w) rest)
    (hw : isName (String.ofList w) = true) : Breaks rest := by
  obtain ⟨d, ds, rfl, hd, -⟩ := isName_iff.mp hw
  have hmem : d ∈ x ++ d :: ds := List.mem_append_right x List.mem_cons_self
  -- An identifier starts with a letter, and neither digits nor signs are letters.
  have hsign : ∀ kind, sign? d ≠ some kind := by
    intro kind hsome
    rw [(class_of_sign? hsome).2.2] at hd
    exact Bool.noConfusion hd
  generalize x ++ d :: ds = lexeme at h hmem
  cases h with
  | turnstile =>
      rcases List.mem_cons.mp hmem with rfl | hmem
      · exact absurd rfl (hsign .bar)
      · obtain rfl := List.mem_singleton.mp hmem
        exact absurd rfl (hsign .dash)
  | ruleName hname hbreaks => exact hbreaks
  | dashedWord hword hbreaks => exact hbreaks
  | digits hdigits hrest =>
      have hletter : isAlphabetic d = true := hd
      rw [isAlphabetic_of_isDigit (hdigits d hmem)] at hletter
      exact Bool.noConfusion hletter
  | identifier hword hbreaks => exact hbreaks
  | sign hsome hturnstile hdash =>
      obtain rfl := List.mem_singleton.mp hmem
      exact absurd hsome (hsign _)

/-! ## §3. Where a scan halts. -/

/-- The scan of `as ++ bs` comes to the place between the two. -/
inductive ComesTo (bs : List Char) : List Char → Prop
  | here : ComesTo bs []
  | skip {c : Char} {as : List Char} :
      lexeme? (c :: (as ++ bs)) = none → ComesTo bs as → ComesTo bs (c :: as)
  | lexeme {kind : Kind} {lexeme as : List Char} :
      lexeme? (lexeme ++ (as ++ bs)) = some (kind, lexeme) → ComesTo bs as
        → ComesTo bs (lexeme ++ as)

/-- **A scan does not halt inside an identifier.** -/
theorem ComesTo.breaks {as bs x w : List Char} (h : ComesTo bs as) (has : as = x ++ w)
    (hw : isName (String.ofList w) = true) : Breaks bs := by
  induction h generalizing x with
  | here => exact absurd (List.append_eq_nil_iff.mp has.symm).2 (ne_nil_of_isName hw)
  | @skip c as hnone hcomes ih =>
      cases x with
      | nil =>
          -- What is passed over is no letter.
          obtain ⟨d, w', rfl, hd, -⟩ := isName_iff.mp hw
          obtain ⟨rfl, rfl⟩ := List.cons.inj has
          rw [(lexeme?_none_of_none hnone).2] at hd
          exact Bool.noConfusion hd
      | cons d x => exact ih (List.cons.inj has).2
  | @lexeme kind lexeme as hlexeme hcomes ih =>
      rcases List.append_eq_append_iff.mp has with ⟨x', hx, has'⟩ | ⟨w₁, hlexeme', hw₁⟩
      · exact ih has'
      · by_cases hnil : w₁ = []
        · rw [hnil, List.nil_append] at hw₁
          exact @ih [] hw₁.symm
        · -- The lexeme ends in a beginning of the identifier, so it takes the whole of it.
          have hbreaks : Breaks (as ++ bs) := by
            rw [hlexeme'] at hlexeme
            refine (recognised_of_lexeme? hlexeme).breaks ?_
            rw [hw₁] at hw
            exact isName_beginning hw hnil
          cases as with
          | nil => exact hbreaks
          | cons d as =>
              have hd : isNameRest d = true := isNameRest_of_mem hw (by rw [hw₁]; simp)
              rw [hbreaks d rfl] at hd
              exact Bool.noConfusion hd

/-- A cut where the scan halts makes no rule name. -/
theorem ComesTo.ruleName?_eq_none {as bs : List Char} (h : ComesTo bs as)
    (hnone : ruleName? (as ++ bs) = none) : ruleName? as = none := by
  rw [Option.eq_none_iff_forall_ne_some]
  intro name hname
  obtain ⟨hmem, rest, has, hrest⟩ := ruleName?_eq_some_iff.mp hname
  have hbreaks : Breaks (rest ++ bs) := by
    cases rest with
    | nil =>
        obtain ⟨x, w, hword, hw⟩ := exists_isName_of_mem_ruleNames hmem
        rw [List.append_nil, hword] at has
        exact h.breaks has hw
    | cons d rest => exact hrest
  have hthere : ruleName? (as ++ bs) = some name :=
    ruleName?_eq_some_iff.mpr ⟨hmem, rest ++ bs, by rw [has, List.append_assoc], hbreaks⟩
  rw [hnone] at hthere
  exact absurd hthere (by simp)

/-- A run that ends before a cut is the whole run there is before the cut. -/
theorem takeWhile_append_of_isPrefix {p : Char → Bool} {as bs : List Char}
    (h : (as ++ bs).takeWhile p <+: as) : (as ++ bs).takeWhile p = as.takeWhile p := by
  rw [List.takeWhile_append] at h ⊢
  split at h
  · next hfull =>
      have hself : as.takeWhile p = as := (List.takeWhile_prefix p).eq_of_length hfull
      rw [if_pos hfull, hself]
      exact h.eq_of_length_le (by rw [List.length_append]; omega)
  · next hpart => rw [if_neg hpart]

/-- A rule name before a cut stays one. -/
theorem ruleName?_of_append {as bs name : List Char} (h : ruleName? (as ++ bs) = some name)
    (hpre : name <+: as) : ruleName? as = some name := by
  obtain ⟨hmem, rest', htext, hbreaks⟩ := ruleName?_eq_some_iff.mp h
  obtain ⟨rest, rfl⟩ := hpre
  rw [List.append_assoc, List.append_cancel_left_eq] at htext
  refine ruleName?_eq_some_iff.mpr ⟨hmem, rest, rfl, fun c hc => hbreaks c ?_⟩
  rw [← htext, List.head?_append, Option.mem_def.mp hc]
  rfl

/-- A word behind a dash that ends before a cut starts before it. -/
theorem starts_of_append {as bs : List Char} (h : (as ++ bs).head?.any isNameStart = true)
    (hpre : (as ++ bs).takeWhile isNameRest <+: as) : as.head?.any isNameStart = true := by
  cases as with
  | cons c as => exact h
  | nil =>
      cases bs with
      | nil => exact h
      | cons d bs =>
          have hd : isNameStart d = true := h
          rw [List.nil_append, List.takeWhile_cons_of_pos (isNameRest_of_isNameStart hd)] at hpre
          exact absurd (List.prefix_nil.mp hpre) (List.cons_ne_nil _ _)

/-- **A lexeme before a place where the scan halts** is one if the text is cut
there. -/
theorem ComesTo.lexeme?_eq {as bs lexeme : List Char} {kind : Kind} (h : ComesTo bs as)
    (hlexeme : lexeme? (as ++ bs) = some (kind, lexeme)) (hpre : lexeme <+: as) :
    lexeme? as = some (kind, lexeme) := by
  cases as with
  | nil => exact absurd (List.prefix_nil.mp hpre) (isPrefix_of_lexeme? hlexeme).2
  | cons c as =>
      have hhead : ∀ d, as.head? = some d → (as ++ bs).head? = some d := by
        intro d hd
        rw [List.head?_append, hd, Option.some_or]
      have hrun : ∀ p : Char → Bool, c :: (as ++ bs).takeWhile p <+: c :: as →
          (as ++ bs).takeWhile p = as.takeWhile p := by
        intro p hrun
        exact takeWhile_append_of_isPrefix (List.cons_prefix_cons.mp hrun).2
      -- The recognisers are tried in the same order, and each one that fails on the whole
      -- fails on the part.
      rw [List.cons_append] at hlexeme
      unfold lexeme? at hlexeme
      dsimp only at hlexeme
      rw [lexeme?]
      split at hlexeme
      · exact absurd hlexeme (by simp)
      · next hblank =>
          rw [if_neg hblank]
          split at hlexeme
          · obtain ⟨rfl, rfl⟩ := Prod.mk.inj (Option.some.inj hlexeme)
            obtain ⟨rest, hrest⟩ := hpre
            obtain ⟨rfl, rfl⟩ := List.cons.inj hrest
            rfl
          · next hturnstile =>
              have hturnstile' : ¬(decide (c = '|') && decide (as.head? = some '-')) = true := by
                intro hcut
                simp only [Bool.and_eq_true, decide_eq_true_eq] at hcut hturnstile
                exact hturnstile ⟨hcut.1, hhead _ hcut.2⟩
              rw [if_neg hturnstile']
              split at hlexeme
              · next name hname =>
                  obtain ⟨rfl, rfl⟩ := Prod.mk.inj (Option.some.inj hlexeme)
                  rw [ruleName?_of_append hname hpre]
              · next hname =>
                  rw [h.ruleName?_eq_none hname]
                  dsimp only
                  split at hlexeme
                  · next hdash =>
                      obtain ⟨rfl, rfl⟩ := Prod.mk.inj (Option.some.inj hlexeme)
                      rw [Bool.and_eq_true] at hdash
                      have hhere := starts_of_append hdash.2 (List.cons_prefix_cons.mp hpre).2
                      rw [if_pos (by rw [hdash.1, hhere]; rfl), hrun _ hpre]
                  · next hdash =>
                      have hdash' : ¬(decide (c = '-') && as.head?.any isNameStart) = true := by
                        intro hcut
                        simp only [Bool.and_eq_true, Option.any_eq_true] at hcut hdash
                        obtain ⟨hc, d, hd, hstart⟩ := hcut
                        exact hdash ⟨hc, d, hhead d hd, hstart⟩
                      rw [if_neg hdash']
                      split at hlexeme
                      · next hdigit =>
                          obtain ⟨rfl, rfl⟩ := Prod.mk.inj (Option.some.inj hlexeme)
                          rw [if_pos hdigit, hrun _ hpre]
                      · next hdigit =>
                          rw [if_neg hdigit]
                          split at hlexeme
                          · next hstart =>
                              obtain ⟨rfl, rfl⟩ := Prod.mk.inj (Option.some.inj hlexeme)
                              rw [if_pos hstart, hrun _ hpre]
                          · next hstart =>
                              rw [if_neg hstart]
                              exact hlexeme

/-- **The tokens of a text that is cut where its scan halts** are those of the
one part, then those of the other. -/
theorem scan_append_of_comesTo {as bs : List Char} (h : ComesTo bs as) (offset : Nat) :
    scan offset (as ++ bs) = scan offset as ++ scan (offset + byteLength as) bs := by
  induction h generalizing offset with
  | here => simp [scan]
  | @skip c as hnone hcomes ih =>
      have hnone' := (lexeme?_none_of_none hnone).1 as
      rw [List.cons_append, scan, hnone, scan, hnone']
      dsimp only
      rw [ih, byteLength_cons, Nat.add_assoc]
  | @lexeme kind lexeme as hlexeme hcomes ih =>
      have hlexeme' : lexeme? (lexeme ++ as) = some (kind, lexeme) := by
        refine (ComesTo.lexeme hlexeme hcomes).lexeme?_eq ?_ (List.prefix_append lexeme as)
        rw [List.append_assoc]
        exact hlexeme
      rw [List.append_assoc, scan_lexeme hlexeme, scan_lexeme hlexeme', ih, byteLength_append,
        Nat.add_assoc, List.cons_append]

/-- No token of the text lies on both sides of the cut between its two parts. -/
def Uncut (offset : Nat) (as bs : List Char) : Prop :=
  ∀ t ∈ scan offset (as ++ bs),
    t.span.stop ≤ offset + byteLength as ∨ offset + byteLength as ≤ t.span.start

/-- **A scan halts wherever it cuts no token in two.** -/
theorem comesTo_of_uncut (offset : Nat) {as bs : List Char} (h : Uncut offset as bs) :
    ComesTo bs as := by
  unfold Uncut at h
  cases as with
  | nil => exact .here
  | cons c as =>
      rw [List.cons_append] at h
      cases hlexeme : lexeme? (c :: (as ++ bs)) with
      | none =>
          rw [scan, hlexeme, byteLength_cons, ← Nat.add_assoc] at h
          exact .skip hlexeme (comesTo_of_uncut _ h)
      | some found =>
          obtain ⟨kind, lexeme⟩ := found
          obtain ⟨hpre, hne⟩ := isPrefix_of_lexeme? hlexeme
          have hshorter : 0 < lexeme.length := List.length_pos_iff.mpr hne
          obtain ⟨rest, hrest⟩ : lexeme <+: c :: as := by
            refine isPrefix_of_byteLength_le hpre ⟨bs, rfl⟩ ?_
            have hfirst := h ⟨kind, String.ofList lexeme, ⟨offset, offset + byteLength lexeme⟩⟩
              (by rw [scan, hlexeme]; exact List.mem_cons_self)
            have hpos := c.utf8Size_pos
            rw [byteLength_cons] at hfirst ⊢
            dsimp only at hfirst
            omega
          have htext : c :: (as ++ bs) = lexeme ++ (rest ++ bs) := by
            rw [← List.cons_append, ← hrest, List.append_assoc]
          rw [htext] at hlexeme
          have hlength : rest.length < (c :: as).length := by
            rw [← hrest, List.length_append]
            omega
          rw [htext, scan_lexeme hlexeme] at h
          rw [← hrest]
          refine .lexeme hlexeme (comesTo_of_uncut (offset + byteLength lexeme) fun t ht => ?_)
          have hthere := h t (List.mem_cons_of_mem _ ht)
          rwa [← hrest, byteLength_append, ← Nat.add_assoc] at hthere
termination_by as.length

end Token

end NaturalDeduction
