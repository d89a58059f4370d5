/-
  NaturalDeduction.Proofs.Grammar
  ───────────────────────────────
  **THE GRAMMAR OF FORMULAS**, and that the readers keep to it.

  `Derives` relates the tokens of a formula to the formula, with one
  constructor for each alternative of the grammar; it knows nothing of the
  order in which a reader tries them.  A reader accounts for its tokens
  (`Accounts`): what it finds is derived from the tokens that it used up, and
  when it complains, what it has passed over can be completed to a formula
  (`InTime`).  Every place where a reader gives up comes with a completion of
  all that is still open there: a name for a missing formula or term, and a
  parenthesis for each that was opened.  Main statements:

    • `implication_accounts` — along the recursion of the readers, each of which
      is opened here once,
    • `implication_derives`, `implication_inTime` — what this says of a reading
      that goes through, and of one that does not.
-/
import NaturalDeduction.Proofs.Reading

namespace NaturalDeduction.Formula

open Token (nextIs_cons)

/-! ## §1. The grammar. -/

/-- The levels of the grammar.  Each is more tightly bound than the one
before. -/
inductive Level where
  | implication
  | disjunction
  | conjunction
  | unary
  | primary

/-- `term (',' term)*` -/
inductive DerivesTerms : List Token → List Name → Prop
  | one {t : Token} : t.isTerm = true → DerivesTerms [t] [t.text]
  | more {ts : List Token} {names : List Name} {comma t : Token} :
      DerivesTerms ts names → comma.kind = .comma → t.isTerm = true →
      DerivesTerms (ts ++ [comma, t]) (names ++ [t.text])

/-- `(term (',' term)*)?` -/
inductive DerivesArguments : List Token → List Name → Prop
  | none : DerivesArguments [] []
  | some {ts : List Token} {names : List Name} :
      DerivesTerms ts names → DerivesArguments ts names

/-- **The tokens that make up a formula**, at each level of the grammar. -/
inductive Derives : Level → List Token → Formula → Prop
  | ofDisjunction {ts : List Token} {f : Formula} :
      Derives .disjunction ts f → Derives .implication ts f
  | imp {ts us : List Token} {t : Token} {f g : Formula} :
      Derives .disjunction ts f → t.kind = .greater → Derives .implication us g →
      Derives .implication (ts ++ t :: us) (imp f g)
  | ofConjunction {ts : List Token} {f : Formula} :
      Derives .conjunction ts f → Derives .disjunction ts f
  | disj {ts us : List Token} {t : Token} {f g : Formula} :
      Derives .disjunction ts f → t.isWord Connective.disj.sign = true →
      Derives .conjunction us g → Derives .disjunction (ts ++ t :: us) (disj f g)
  | ofUnary {ts : List Token} {f : Formula} :
      Derives .unary ts f → Derives .conjunction ts f
  | conj {ts us : List Token} {t : Token} {f g : Formula} :
      Derives .conjunction ts f → t.kind = .ampersand → Derives .unary us g →
      Derives .conjunction (ts ++ t :: us) (conj f g)
  | ofPrimary {ts : List Token} {f : Formula} :
      Derives .primary ts f → Derives .unary ts f
  | neg {ts : List Token} {t : Token} {f : Formula} :
      t.kind = .tilde → Derives .unary ts f → Derives .unary (t :: ts) (neg f)
  | bind {ts : List Token} {t opening x close : Token} {f : Formula} (quantifier : Quantifier) :
      t.isWord quantifier.word = true → opening.kind = .leftParen → x.kind = .identifier →
      close.kind = .rightParen → Derives .unary ts f →
      Derives .unary (t :: opening :: x :: close :: ts) (bind quantifier x.text f)
  | paren {ts : List Token} {opening close : Token} {f : Formula} :
      opening.kind = .leftParen → Derives .implication ts f → close.kind = .rightParen →
      Derives .primary (opening :: (ts ++ [close])) f
  | falsity {t : Token} : t.kind = .falsity → Derives .primary [t] falsity
  | identity {left sign right : Token} :
      left.isTerm = true → sign.kind = .equals → right.isTerm = true →
      Derives .primary [left, sign, right] (identity left.text right.text)
  | name {t : Token} : t.kind = .identifier → Derives .primary [t] (atom t.text [])
  | apply {ts : List Token} {t opening close : Token} {names : List Name} :
      t.kind = .identifier → t.text ≠ Quantifier.all.word → t.text ≠ Quantifier.ex.word →
      opening.kind = .leftParen → DerivesArguments ts names → close.kind = .rightParen →
      Derives .primary (t :: opening :: (ts ++ [close])) (atom t.text names)

/-- The level of a chain. -/
def Chain.level : Chain → Level
  | disjunction => .disjunction
  | conjunction => .conjunction

/-- The level of the parts of a chain. -/
def Chain.partLevel : Chain → Level
  | disjunction => .conjunction
  | conjunction => .unary

theorem Derives.ofPart {c : Chain} {ts : List Token} {f : Formula}
    (h : Derives c.partLevel ts f) : Derives c.level ts f := by
  cases c with
  | disjunction => exact .ofConjunction h
  | conjunction => exact .ofUnary h

theorem Derives.onePartMore {c : Chain} {ts us : List Token} {t : Token} {f g : Formula}
    (hf : Derives c.level ts f) (ht : c.goesOnWith t = true) (hg : Derives c.partLevel us g) :
    Derives c.level (ts ++ t :: us) (join c.connective f g) := by
  cases c with
  | disjunction => exact .disj hf ht hg
  | conjunction => exact .conj hf (of_decide_eq_true ht) hg

/-! ## §2. Completions. -/

/-- Tokens that some further tokens complete to a formula. -/
def Viable (level : Level) (ts : List Token) : Prop := ∃ more f, Derives level (ts ++ more) f

/-- A name, to complete what lacks a formula or a term. -/
def anyName : Token := ⟨.identifier, "x", .emptyAt 0⟩

/-- The sign of an identity. -/
def equalsSign : Token := ⟨.equals, "=", .emptyAt 0⟩

/-- A parenthesis, to complete what was opened. -/
def closeParen : Token := ⟨.rightParen, ")", .emptyAt 0⟩

/-- What can be completed on one level can be completed behind tokens that a
formula of that level goes on with. -/
theorem Viable.behind {level level' : Level} {before used : List Token} (h : Viable level used)
    (place : ∀ ts f, Derives level ts f → ∃ g, Derives level' (before ++ ts) g) :
    Viable level' (before ++ used) := by
  obtain ⟨more, f, hderives⟩ := h
  obtain ⟨g, hplaced⟩ := place _ f hderives
  exact ⟨more, g, by rwa [List.append_assoc]⟩

/-- What can be completed on one level can be completed on a wider one. -/
theorem Viable.widen {level level' : Level} {used : List Token} (h : Viable level used)
    (wider : ∀ ts f, Derives level ts f → Derives level' ts f) : Viable level' used := by
  obtain ⟨more, f, hderives⟩ := h
  exact ⟨more, f, wider _ f hderives⟩

/-- A name alone is a formula. -/
theorem derives_anyName : Derives .unary [anyName] (atom "x" []) := .ofPrimary (.name rfl)

/-- **Nothing at all can be completed**, on every level. -/
theorem viable_nil (level : Level) : Viable level [] := by
  have hunary := derives_anyName
  cases level with
  | implication => exact ⟨_, _, .ofDisjunction (.ofConjunction (.ofUnary hunary))⟩
  | disjunction => exact ⟨_, _, .ofConjunction (.ofUnary hunary)⟩
  | conjunction => exact ⟨_, _, .ofUnary hunary⟩
  | unary => exact ⟨_, _, hunary⟩
  | primary => exact ⟨[anyName], _, .name rfl⟩

/-! ## §3. Accounts. -/

variable {α : Type} {stop : Nat} {tokens source rest : List Token} {e : Unexpected}

/-- **A complaint comes in time** if it is about what stands behind a part of
the tokens that can be completed. -/
def InTime (stop : Nat) (viable : List Token → Prop) (tokens : List Token) (e : Unexpected) :
    Prop :=
  ∃ used rest expected, tokens = used ++ rest ∧ e = Token.unexpectedAt stop rest expected
    ∧ viable used

/-- A complaint about the next token, where nothing was passed over. -/
theorem inTime_here {viable : List Token → Prop} (h : viable []) (expected : Expected) :
    InTime stop viable tokens (Token.unexpectedAt stop tokens expected) :=
  ⟨[], tokens, expected, rfl, rfl, h⟩

/-- A reader of one token passes over nothing before it complains. -/
theorem inTime_atOnce (stop : Nat) (tokens : List Token) (expected : Expected) :
    InTime stop (fun used => used = []) tokens (Token.unexpectedAt stop tokens expected) :=
  ⟨[], tokens, expected, rfl, rfl, rfl⟩

/-- A complaint behind tokens that were passed over before. -/
theorem InTime.behind {viable viable' : List Token → Prop} {all : List Token}
    (h : InTime stop viable tokens e) (before : List Token) (hall : all = before ++ tokens)
    (hviable : ∀ used, viable used → viable' (before ++ used)) : InTime stop viable' all e := by
  obtain ⟨used, rest, expected, rfl, he, hused⟩ := h
  exact ⟨before ++ used, rest, expected, by rw [hall, List.append_assoc], he, hviable used hused⟩

/-- A complaint that is passed on by a reader of another level. -/
theorem InTime.mono {viable viable' : List Token → Prop} (h : InTime stop viable tokens e)
    (hviable : ∀ used, viable used → viable' used) : InTime stop viable' tokens e :=
  h.behind [] rfl hviable

/-- **A reader accounts for the tokens of `source`**: what it finds is derived from
those that it used up, and a complaint comes in time. -/
def Accounts (stop : Nat) (source : List Token) (derives : List Token → α → Prop)
    (viable : List Token → Prop) {tokens : List Token} : Reading α tokens → Prop
  | .ok p => ∃ used, source = used ++ p.rest ∧ derives used p.value
  | .error e => InTime stop viable source e

section

variable {derives : List Token → α → Prop} {viable : List Token → Prop} {r r' : Reading α tokens}

theorem Accounts.of_ok (h : Accounts stop source derives viable r) {p : Parsed α tokens}
    (hr : r = .ok p) : ∃ used, source = used ++ p.rest ∧ derives used p.value := by
  rwa [hr] at h

theorem Accounts.of_error (h : Accounts stop source derives viable r) (hr : r = .error e) :
    InTime stop viable source e := by
  rwa [hr] at h

/-- What follows on a reading is shown for what it found, and for its complaint. -/
@[elab_as_elim] theorem Accounts.elim {C : Reading α tokens → Prop}
    (h : Accounts stop source derives viable r)
    (error : ∀ e, InTime stop viable source e → C (.error e))
    (ok : ∀ value rest hless used, source = used ++ rest → derives used value →
      C (.ok ⟨value, rest, hless⟩)) : C r := by
  cases r with
  | error e => exact error e h
  | ok p =>
      obtain ⟨used, hused, hderives⟩ := h
      exact ok p.value p.rest p.shorter used hused hderives

theorem Accounts.ite {c : Prop} [Decidable c]
    (hpos : c → Accounts stop source derives viable r)
    (hneg : ¬c → Accounts stop source derives viable r') :
    Accounts stop source derives viable (if c then r else r') := by
  split
  · next hc => exact hpos hc
  · next hc => exact hneg hc

end

/-! ## §4. Single tokens and atoms. -/

theorem expect_accounts (stop : Nat) (kind : Token.Kind) (tokens : List Token) :
    Accounts stop tokens (fun used t => used = [t] ∧ t.kind = kind) (fun used => used = [])
      (expect stop kind tokens) := by
  cases hread : expect stop kind tokens with
  | error e =>
      rw [expect_eq_error hread]
      exact inTime_atOnce stop tokens _
  | ok p =>
      obtain ⟨htokens, hkind⟩ := expect_eq_ok hread
      exact ⟨[p.value], htokens, rfl, hkind⟩

theorem expectTerm_accounts (stop : Nat) (tokens : List Token) :
    Accounts stop tokens (fun used n => ∃ t : Token, used = [t] ∧ t.isTerm = true ∧ n = t.text)
      (fun used => used = []) (expectTerm stop tokens) := by
  cases tokens with
  | nil => exact inTime_atOnce stop [] _
  | cons t rest =>
      refine .ite (fun hterm => ?_) fun _ => ?_
      · exact ⟨[t], rfl, t, rfl, hterm, rfl⟩
      · exact inTime_atOnce stop (t :: rest) _

/-- Further terms go on with a list of terms, and one that breaks off behind a
comma lacks a term. -/
theorem moreTerms_accounts (stop : Nat) (p : Parsed (List Name) tokens) {ts : List Token}
    (hts : DerivesTerms ts p.value) (htokens : tokens = ts ++ p.rest) :
    Accounts stop tokens DerivesTerms (fun used => ∃ more names, DerivesTerms (used ++ more) names)
      (moreTerms stop p) := by
  fun_induction moreTerms stop p generalizing ts with
  | case1 p hnil => exact ⟨ts, htokens, hts⟩
  | case2 p comma rest hcons hcomma e he =>
      have hmissing := (expectTerm_accounts stop rest).of_error he
      refine hmissing.behind (ts ++ [comma]) (by simp [htokens, hcons]) ?_
      rintro used rfl
      refine ⟨[anyName], p.value ++ [anyName.text], ?_⟩
      rw [List.append_nil, List.append_assoc]
      exact .more hts hcomma rfl
  | case3 p comma rest hcons hcomma term hterm ih =>
      obtain ⟨used, hrest, t, rfl, ht, hvalue⟩ := (expectTerm_accounts stop rest).of_ok hterm
      have hmore : DerivesTerms (ts ++ [comma, t]) (p.value ++ [term.value]) := by
        rw [hvalue]
        exact .more hts hcomma ht
      refine ih hmore ?_
      calc tokens = ts ++ p.rest := htokens
        _ = ts ++ comma :: rest := congrArg (ts ++ ·) hcons
        _ = ts ++ comma :: t :: term.rest := congrArg (ts ++ comma :: ·) hrest
        _ = ts ++ [comma, t] ++ term.rest := by simp
  | case4 p comma rest hcons hcomma => exact ⟨ts, htokens, hts⟩

/-- The terms of an atom are followed by a parenthesis, and those that were read
can be completed before it. -/
theorem arguments_accounts (stop : Nat) (tokens : List Token) :
    Accounts stop tokens
      (fun used names => ∃ ts close, used = ts ++ [close] ∧ close.kind = .rightParen
        ∧ DerivesArguments ts names)
      (fun used => ∃ more names, DerivesArguments (used ++ more) names)
      (arguments stop tokens) := by
  have hnothing : ∃ more names, DerivesArguments ([] ++ more) names := ⟨[], [], .none⟩
  unfold arguments
  refine .ite (fun _ => ?_) fun _ => ?_
  · refine (expectTerm_accounts stop tokens).elim (fun e he => ?_)
      fun first rest hless used htokens hfirst => ?_
    · exact he.mono fun used hused => hused ▸ hnothing
    obtain ⟨t, rfl, ht, rfl⟩ := hfirst
    dsimp only
    refine (moreTerms_accounts stop ⟨[t.text], rest, hless⟩ (.one ht) htokens).elim
      (fun e he => ?_) fun terms rest hless used htokens hterms => ?_
    · refine he.mono fun used hused => ?_
      obtain ⟨more, names, hterms⟩ := hused
      exact ⟨more, names, .some hterms⟩
    dsimp only
    refine (expect_accounts stop .rightParen rest).elim (fun e he => ?_)
      fun close rest _ used' hrest hclose => ?_
    · refine he.behind used htokens ?_
      rintro _ rfl
      exact ⟨[], terms, by simpa using DerivesArguments.some hterms⟩
    obtain ⟨rfl, hkind⟩ := hclose
    refine ⟨used ++ [close], ?_, used, close, rfl, hkind, .some hterms⟩
    rw [List.append_assoc, ← hrest]
    exact htokens
  · refine (expect_accounts stop .rightParen tokens).elim (fun e he => ?_)
      fun close rest _ used htokens hclose => ?_
    · exact he.mono fun used hused => hused ▸ hnothing
    obtain ⟨rfl, hkind⟩ := hclose
    exact ⟨[close], htokens, [], close, rfl, hkind, .none⟩

theorem identityAtom_accounts (stop : Nat) (tokens : List Token) :
    Accounts stop tokens (Derives .primary) (Viable .primary) (identityAtom stop tokens) := by
  unfold identityAtom
  refine (expectTerm_accounts stop tokens).elim (fun e he => ?_)
    fun left rest hless used htokens hleft => ?_
  · exact he.mono fun used hused => hused ▸ viable_nil _
  obtain ⟨l, rfl, hl, rfl⟩ := hleft
  dsimp only
  refine (expect_accounts stop .equals rest).elim (fun e he => ?_)
    fun sign rest' hless' used hrest hsign => ?_
  · refine he.behind [l] htokens ?_
    rintro _ rfl
    exact ⟨[equalsSign, anyName], _, .identity hl rfl rfl⟩
  obtain ⟨rfl, hkind⟩ := hsign
  have htokens' : tokens = [l, sign] ++ rest' := htokens.trans (congrArg (l :: ·) hrest)
  dsimp only
  refine (expectTerm_accounts stop rest').elim (fun e he => ?_)
    fun right rest'' _ used hrest' hright => ?_
  · refine he.behind [l, sign] htokens' ?_
    rintro _ rfl
    exact ⟨[anyName], _, .identity hl hkind rfl⟩
  obtain ⟨r, rfl, hr, rfl⟩ := hright
  exact ⟨[l, sign, r], htokens'.trans (congrArg ([l, sign] ++ ·) hrest'), .identity hl hkind hr⟩

/-- Where no quantifier stands before a parenthesis, the name there is none of
theirs. -/
theorem text_ne_of_quantifier? {t u : Token} (hnone : quantifier? t (u :: rest) = none)
    (ht : t.kind = .identifier) (hu : u.kind = .leftParen) :
    ¬ (t.text = Quantifier.all.word ∨ t.text = Quantifier.ex.word) := by
  unfold quantifier? Token.isWord at hnone
  rw [if_pos (by rw [nextIs_cons, hu]; rfl), ht] at hnone
  rintro (htext | htext) <;> rw [htext] at hnone <;> exact absurd hnone (by decide)

/-- An atom is accounted for, if no quantifier stands in its place. -/
theorem atomic_accounts (stop : Nat) {t : Token} (hnone : quantifier? t rest = none) :
    Accounts stop (t :: rest) (Derives .primary) (Viable .primary) (atomic stop (t :: rest)) := by
  unfold atomic
  dsimp only
  refine .ite (fun _ => identityAtom_accounts stop (t :: rest)) fun _ => ?_
  refine .ite (fun hfalsity => ⟨[t], rfl, .falsity hfalsity⟩) fun _ => ?_
  refine .ite (fun hkind => ?_) fun _ => inTime_here (viable_nil _) _
  cases rest with
  | nil => exact ⟨[t], rfl, .name hkind⟩
  | cons u rest =>
      refine .ite (fun hparen => ?_) fun _ => ⟨[t], rfl, .name hkind⟩
      have hword := text_ne_of_quantifier? hnone hkind hparen
      have hall : t.text ≠ Quantifier.all.word := fun h => hword (.inl h)
      have hex : t.text ≠ Quantifier.ex.word := fun h => hword (.inr h)
      refine (arguments_accounts stop rest).elim (fun e he => ?_)
        fun terms rest' _ used hrest hterms => ?_
      · -- The terms are completed, and then the parenthesis is closed.
        refine he.behind [t, u] rfl fun used hused => ?_
        obtain ⟨more, names, hderives⟩ := hused
        refine ⟨more ++ [closeParen], atom t.text names, ?_⟩
        show Derives .primary (t :: u :: (used ++ (more ++ [closeParen]))) _
        rw [← List.append_assoc]
        exact .apply hkind hall hex hparen hderives rfl
      · obtain ⟨ts, close, rfl, hclose, hderives⟩ := hterms
        exact ⟨t :: u :: (ts ++ [close]), congrArg (t :: u :: ·) hrest,
          .apply hkind hall hex hparen hderives hclose⟩

/-- What counts as a quantifier is written as one. -/
theorem isWord_of_quantifier? {t : Token} {quantifier : Quantifier}
    (h : quantifier? t rest = some quantifier) : t.isWord quantifier.word = true := by
  unfold quantifier? at h
  split at h
  · split at h
    · next hword => rw [← Option.some.inj h]; exact hword
    · split at h
      · next hword => rw [← Option.some.inj h]; exact hword
      · exact absurd h (by simp)
  · exact absurd h (by simp)

/-- The variable of a quantifier is accounted for: a name, a parenthesis and a
formula complete what is there of it. -/
theorem boundVariable_accounts (stop : Nat) (tokens : List Token) {t : Token}
    {quantifier : Quantifier} (ht : t.isWord quantifier.word = true) :
    Accounts stop tokens
      (fun used n => ∃ opening x close : Token, used = [opening, x, close]
        ∧ opening.kind = .leftParen ∧ x.kind = .identifier ∧ close.kind = .rightParen
        ∧ n = x.text)
      (fun used => Viable .unary (t :: used)) (boundVariable stop tokens) := by
  -- Without a parenthesis, the word of a quantifier is a name.
  have hkind : t.kind = .identifier := by
    rw [Token.isWord, Bool.and_eq_true, decide_eq_true_eq] at ht
    exact ht.1
  unfold boundVariable
  refine (expect_accounts stop .leftParen tokens).elim (fun e he => ?_)
    fun opening rest hless used htokens hopening => ?_
  · refine he.mono ?_
    rintro _ rfl
    exact ⟨[], _, .ofPrimary (.name hkind)⟩
  obtain ⟨rfl, hparen⟩ := hopening
  dsimp only
  refine (expect_accounts stop .identifier rest).elim (fun e he => ?_)
    fun x rest' hless' used hrest hx => ?_
  · refine he.behind [opening] htokens ?_
    rintro _ rfl
    exact ⟨[anyName, closeParen, anyName], _, .bind quantifier ht hparen rfl rfl derives_anyName⟩
  obtain ⟨rfl, hname⟩ := hx
  have htokens' : tokens = [opening, x] ++ rest' :=
    htokens.trans (congrArg (opening :: ·) hrest)
  dsimp only
  refine (expect_accounts stop .rightParen rest').elim (fun e he => ?_)
    fun close rest'' _ used hrest' hclose => ?_
  · refine he.behind [opening, x] htokens' ?_
    rintro _ rfl
    exact ⟨[closeParen, anyName], _, .bind quantifier ht hparen hname rfl derives_anyName⟩
  obtain ⟨rfl, hclosed⟩ := hclose
  exact ⟨[opening, x, close], htokens'.trans (congrArg ([opening, x] ++ ·) hrest'),
    opening, x, close, rfl, hparen, hname, hclosed, rfl⟩

/-! ## §5. All formulas. -/

-- One theorem for each reader, on the measure by which the readers end.
mutual

/-- **The reader of implications accounts for its tokens.** -/
theorem implication_accounts (stop : Nat) (tokens : List Token) :
    Accounts stop tokens (Derives .implication) (Viable .implication)
      (implication stop tokens) := by
  rw [implication]
  refine (chain_accounts stop .disjunction tokens).elim (fun e he => ?_)
    fun left rest hless used htokens hleft => ?_
  · exact he.mono fun used hused => hused.widen fun ts f => .ofDisjunction
  cases rest with
  | nil => exact ⟨used, htokens, .ofDisjunction hleft⟩
  | cons t rest =>
      have hshorter : rest.length + 1 < tokens.length := hless
      have hall : tokens = (used ++ [t]) ++ rest := by rw [htokens, List.append_assoc]; rfl
      refine .ite (fun ht => ?_) fun _ => ⟨used, htokens, .ofDisjunction hleft⟩
      refine (implication_accounts stop rest).elim (fun e he => ?_)
        fun right rest' _ used' hrest hright => ?_
      · -- Whatever completes the right side completes the implication.
        refine he.behind _ hall fun more hmore => ?_
        refine hmore.behind fun ts f hts => ⟨imp left f, ?_⟩
        rw [List.append_assoc]
        exact .imp hleft ht hts
      · refine ⟨used ++ t :: used', ?_, .imp hleft ht hright⟩
        calc tokens = used ++ t :: rest := htokens
          _ = used ++ t :: (used' ++ rest') := congrArg (used ++ t :: ·) hrest
          _ = used ++ t :: used' ++ rest' := by simp
termination_by 6 * tokens.length + 5

theorem chain_accounts (stop : Nat) (c : Chain) (tokens : List Token) :
    Accounts stop tokens (Derives c.level) (Viable c.level) (chain stop c tokens) := by
  rw [chain]
  refine (part_accounts stop c tokens).elim (fun e he => ?_)
    fun left rest hless used htokens hleft => ?_
  · exact he.mono fun used hused => hused.widen fun ts f => .ofPart
  dsimp only
  refine (moreParts_accounts stop c ⟨left, rest, hless⟩).elim (fun e he => ?_)
    fun value rest' _ more hrest hmore => ?_
  · exact he.behind used htokens fun more hmore => hmore used hleft.ofPart
  · refine ⟨used ++ more, ?_, hmore used hleft.ofPart⟩
    rw [List.append_assoc, ← hrest]
    exact htokens
termination_by 6 * tokens.length + match c with
  | .disjunction => 4
  | .conjunction => 2
decreasing_by
  · cases c <;> simp only <;> omega
  · omega

/-- Further parts go on with whatever chain came before, and are completed behind
it. -/
theorem moreParts_accounts (stop : Nat) (c : Chain) {tokens : List Token}
    (left : Parsed Formula tokens) :
    Accounts stop left.rest
      (fun used f => ∀ ts, Derives c.level ts left.value → Derives c.level (ts ++ used) f)
      (fun used => ∀ ts, Derives c.level ts left.value → Viable c.level (ts ++ used))
      (moreParts stop c left) := by
  -- Where the tokens of the chain so far begin is not known here, only that some
  -- tokens derive it; so they are given from outside, as `ts`.
  obtain ⟨f, rest, hless⟩ := left
  rw [moreParts]
  dsimp only
  have hdone : ∀ ts, Derives c.level ts f → Derives c.level (ts ++ []) f :=
    fun ts hts => by rwa [List.append_nil]
  cases rest with
  | nil => exact ⟨[], rfl, hdone⟩
  | cons t rest =>
      refine .ite (fun ht => ?_) fun _ => ⟨[], rfl, hdone⟩
      refine (part_accounts stop c rest).elim (fun e he => ?_)
        fun right rest' hless' used hrest hright => ?_
      · refine he.behind [t] rfl fun more hmore ts hts => ?_
        rw [← List.append_assoc]
        refine hmore.behind fun us g hus => ⟨join c.connective f g, ?_⟩
        rw [List.append_assoc]
        exact hts.onePartMore ht hus
      have hall : t :: rest = (t :: used) ++ rest' := congrArg (t :: ·) hrest
      have hshorter : rest'.length < tokens.length := by
        rw [List.length_cons] at hless
        omega
      dsimp only
      refine (moreParts_accounts stop c
        (⟨join c.connective f right, rest', hshorter⟩ : Parsed Formula tokens)).elim
        (fun e he => ?_) fun value rest'' _ more hrest' hmore => ?_
      · refine he.behind _ hall fun more hmore ts hts => ?_
        rw [← List.append_assoc]
        exact hmore _ (hts.onePartMore ht hright)
      · refine ⟨(t :: used) ++ more, ?_, fun ts hts => ?_⟩
        · rw [List.append_assoc, ← hrest']
          exact hall
        · rw [← List.append_assoc]
          exact hmore _ (hts.onePartMore ht hright)
termination_by 6 * left.rest.length
decreasing_by
  all_goals subst_vars
  all_goals simp only [List.length_cons]
  · cases c <;> simp only <;> omega
  · omega

theorem part_accounts (stop : Nat) (c : Chain) (tokens : List Token) :
    Accounts stop tokens (Derives c.partLevel) (Viable c.partLevel) (part stop c tokens) := by
  cases c with
  | disjunction =>
      rw [part_disjunction]
      exact chain_accounts stop .conjunction tokens
  | conjunction =>
      rw [part_conjunction]
      exact unary_accounts stop tokens
termination_by 6 * tokens.length + match c with
  | .disjunction => 3
  | .conjunction => 1

theorem unary_accounts (stop : Nat) (tokens : List Token) :
    Accounts stop tokens (Derives .unary) (Viable .unary) (unary stop tokens) := by
  cases tokens with
  | nil =>
      rw [unary]
      exact inTime_here (viable_nil _) _
  | cons t rest =>
      rw [unary]
      refine .ite (fun ht => ?_) fun _ => ?_
      · refine (unary_accounts stop rest).elim (fun e he => ?_)
          fun inner rest' _ used hrest hinner => ?_
        · refine he.behind [t] rfl fun used hused => ?_
          exact hused.behind fun ts f hts => ⟨neg f, .neg ht hts⟩
        · exact ⟨t :: used, congrArg (t :: ·) hrest, .neg ht hinner⟩
      cases hq : quantifier? t rest with
      | some quantifier =>
          have ht := isWord_of_quantifier? hq
          refine (boundVariable_accounts stop rest ht).elim (fun e he => ?_)
            fun var left hless used hrest hvar => ?_
          · exact he.behind [t] rfl fun used hused => hused
          obtain ⟨opening, x, close, rfl, hopening, hx, hclose, rfl⟩ := hvar
          have hall : t :: rest = [t, opening, x, close] ++ left := congrArg (t :: ·) hrest
          dsimp only
          refine (unary_accounts stop left).elim (fun e he => ?_)
            fun body rest' _ used hleft hbody => ?_
          · refine he.behind _ hall fun used hused => ?_
            exact hused.behind fun ts f hts =>
              ⟨bind quantifier x.text f, .bind quantifier ht hopening hx hclose hts⟩
          · exact ⟨t :: opening :: x :: close :: used,
              hall.trans (congrArg ([t, opening, x, close] ++ ·) hleft),
              .bind quantifier ht hopening hx hclose hbody⟩
      | none =>
          refine .ite (fun hparen => ?_) fun _ => ?_
          · refine (implication_accounts stop rest).elim (fun e he => ?_)
              fun inner left hless used hrest hinner => ?_
            · -- The formula inside is completed, and then the parenthesis is closed.
              refine he.behind [t] rfl fun used hused => ?_
              obtain ⟨more, f, hderives⟩ := hused
              refine ⟨more ++ [closeParen], f, .ofPrimary ?_⟩
              show Derives .primary (t :: (used ++ (more ++ [closeParen]))) f
              rw [← List.append_assoc]
              exact .paren hparen hderives rfl
            dsimp only
            refine (expect_accounts stop .rightParen left).elim (fun e he => ?_)
              fun close rest' _ used' hleft hclose => ?_
            · refine he.behind (t :: used) (congrArg (t :: ·) hrest) ?_
              rintro _ rfl
              rw [List.append_nil]
              exact ⟨[closeParen], _, .ofPrimary (.paren hparen hinner rfl)⟩
            · obtain ⟨rfl, hkind⟩ := hclose
              refine ⟨t :: (used ++ [close]), ?_, .ofPrimary (.paren hparen hinner hkind)⟩
              calc t :: rest = t :: (used ++ left) := congrArg (t :: ·) hrest
                _ = t :: (used ++ ([close] ++ rest')) := congrArg (t :: used ++ ·) hleft
                _ = t :: (used ++ [close]) ++ rest' := by simp
          · refine (atomic_accounts stop hq).elim (fun e he => ?_)
              fun f rest' _ used hrest hatom => ?_
            · exact he.mono fun used hused => hused.widen fun ts f => .ofPrimary
            · exact ⟨used, hrest, .ofPrimary hatom⟩
termination_by 6 * tokens.length + 0
decreasing_by
  all_goals subst_vars
  all_goals simp only [List.length_cons]
  all_goals omega

end

/-- **What is read as an implication is derived as one.** -/
theorem implication_derives {p : Parsed Formula tokens} (h : implication stop tokens = .ok p) :
    ∃ used, tokens = used ++ p.rest ∧ Derives .implication used p.value :=
  (implication_accounts stop tokens).of_ok h

/-- **Whatever an implication is refused for, what was read before it can be
completed.** -/
theorem implication_inTime (h : implication stop tokens = .error e) :
    InTime stop (Viable .implication) tokens e :=
  (implication_accounts stop tokens).of_error h

end NaturalDeduction.Formula
