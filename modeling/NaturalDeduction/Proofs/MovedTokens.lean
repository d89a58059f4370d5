/-
  NaturalDeduction.Proofs.MovedTokens
  ───────────────────────────────────
  **A READER OF FORMULAS DOES NOT LOOK AT PLACES.**

  Moving the tokens, each to another span, changes nothing of what a reader
  does: it reads the same formula and leaves the moved rest, or it makes the
  same complaint at the moved token (`Moves`), provided that the end of the text
  is moved along.  Main statements:

    • `implication_moves` — every reader of formulas follows its tokens,
    • `Token.exists_move` — of two texts with the same words, the tokens of the
      one are moved tokens of the other.
-/
import Mathlib.Logic.Function.Basic
import NaturalDeduction.Proofs.Reading
import NaturalDeduction.Proofs.Scanning

namespace NaturalDeduction

/-! ## §1. Moving. -/

/-- The token at another place. -/
def Token.move (σ : Span → Span) (t : Token) : Token := { t with span := σ t.span }

/-- The complaint about another place. -/
def Unexpected.move (σ : Span → Span) (e : Unexpected) : Unexpected := { e with span := σ e.span }

namespace Token

variable {σ : Span → Span} {stop stop' : Nat}

theorem nextIs_move (kind : Kind) (tokens : List Token) :
    nextIs kind (tokens.map (move σ)) = nextIs kind tokens := by
  cases tokens with
  | nil => rfl
  | cons t rest => rfl

/-- A complaint about what stands next moves with it. -/
theorem unexpectedAt_move (hstop : σ (.emptyAt stop) = .emptyAt stop') (ts : List Token)
    (expected : Expected) :
    unexpectedAt stop' (ts.map (move σ)) expected = (unexpectedAt stop ts expected).move σ := by
  cases ts with
  | nil =>
      show (⟨expected, none, .emptyAt stop'⟩ : Unexpected) = ⟨expected, none, σ (.emptyAt stop)⟩
      rw [hstop]
  | cons t ts => rfl

/-- **The tokens of two texts with the same words** differ by a move, which also
takes the end of the one text to that of the other. -/
theorem exists_move (stop stop' : Nat) {ts us : List Token} (hwords : ts.map word = us.map word)
    (hapart : ts.Pairwise fun t u => t.span ≠ u.span)
    (hends : ∀ t ∈ ts, t.span ≠ .emptyAt stop) :
    ∃ σ : Span → Span, σ (.emptyAt stop) = .emptyAt stop' ∧ us = ts.map (move σ) := by
  induction ts generalizing us with
  | nil => exact ⟨fun _ => .emptyAt stop', rfl, List.map_eq_nil_iff.mp hwords.symm⟩
  | cons t ts ih =>
      cases us with
      | nil => exact absurd hwords (by simp)
      | cons u us =>
          obtain ⟨hword, hwords⟩ := List.cons.inj hwords
          obtain ⟨hfirst, hapart⟩ := List.pairwise_cons.mp hapart
          obtain ⟨σ, hstop, rfl⟩ := ih hwords hapart
            fun t' ht' => hends t' (List.mem_cons_of_mem t ht')
          -- The first token is moved to its own place, and nothing else stands on it.
          refine ⟨Function.update σ t.span u.span, ?_, ?_⟩
          · rw [Function.update_of_ne (Ne.symm (hends t List.mem_cons_self)), hstop]
          · rw [List.map_cons]
            congr 1
            · obtain ⟨hkind, htext⟩ := Prod.mk.inj hword
              show u = ⟨t.kind, t.text, Function.update σ t.span u.span t.span⟩
              rw [Function.update_self]
              show u = ⟨t.kind, t.text, u.span⟩
              rw [hkind, htext]
            · refine List.map_congr_left fun t' ht' => ?_
              show (⟨t'.kind, t'.text, σ t'.span⟩ : Token)
                = ⟨t'.kind, t'.text, Function.update σ t.span u.span t'.span⟩
              rw [Function.update_of_ne (Ne.symm (hfirst t' ht'))]

end Token

namespace Formula

variable {α : Type} {tokens tokens' : List Token} {σ : Span → Span} {stop stop' : Nat}

/-- **The second reading is the first one, moved**: it read the same but for
what `f` moves, or it complains at the moved place. -/
inductive Moves (σ : Span → Span) (f : α → α) : Reading α tokens → Reading α tokens' → Prop
  | ok (value : α) (rest : List Token) (hless : rest.length < tokens.length)
      (hless' : (rest.map (Token.move σ)).length < tokens'.length) :
      Moves σ f (.ok ⟨value, rest, hless⟩) (.ok ⟨f value, rest.map (Token.move σ), hless'⟩)
  | error (e : Unexpected) : Moves σ f (.error e) (.error (e.move σ))

/-- What follows on moved readings follows if it does so on what was read. -/
@[elab_as_elim] theorem Moves.elim {f : α → α} {r : Reading α tokens} {r' : Reading α tokens'}
    {C : Reading α tokens → Reading α tokens' → Prop} (h : Moves σ f r r')
    (error : ∀ e, C (.error e) (.error (e.move σ)))
    (ok : ∀ value rest hless hless', C (.ok ⟨value, rest, hless⟩)
      (.ok ⟨f value, rest.map (Token.move σ), hless'⟩)) : C r r' := by
  cases h with
  | ok value rest hless hless' => exact ok value rest hless hless'
  | error e => exact error e

theorem Moves.ite {c : Prop} [Decidable c] {f : α → α} {r s : Reading α tokens}
    {r' s' : Reading α tokens'} (hpos : c → Moves σ f r r') (hneg : ¬c → Moves σ f s s') :
    Moves σ f (if c then r else s) (if c then r' else s') := by
  split
  · next hc => exact hpos hc
  · next hc => exact hneg hc

/-- A complaint about what stands next. -/
theorem moves_unexpectedAt (hstop : σ (.emptyAt stop) = .emptyAt stop') (f : α → α)
    (ts : List Token) (expected : Expected) :
    Moves σ f (.error (Token.unexpectedAt stop ts expected) : Reading α tokens)
      (.error (Token.unexpectedAt stop' (ts.map (Token.move σ)) expected) : Reading α tokens') := by
  rw [Token.unexpectedAt_move hstop]
  exact .error _

/-! ## §2. Single tokens and atoms. -/

theorem expect_moves (hstop : σ (.emptyAt stop) = .emptyAt stop') (kind : Token.Kind)
    (tokens : List Token) :
    Moves σ (Token.move σ) (expect stop kind tokens)
      (expect stop' kind (tokens.map (Token.move σ))) := by
  cases tokens with
  | nil => exact moves_unexpectedAt hstop _ [] _
  | cons t rest =>
      rw [List.map_cons, expect_cons, expect_cons]
      refine .ite (fun hkind => ?_) fun hkind => ?_
      · exact .ok t rest _ _
      · exact moves_unexpectedAt hstop _ (t :: rest) _

theorem expectTerm_moves (hstop : σ (.emptyAt stop) = .emptyAt stop') (tokens : List Token) :
    Moves σ id (expectTerm stop tokens) (expectTerm stop' (tokens.map (Token.move σ))) := by
  cases tokens with
  | nil => exact moves_unexpectedAt hstop _ [] _
  | cons t rest =>
      refine .ite (fun hterm => ?_) fun hterm => ?_
      · exact .ok t.text rest _ _
      · exact moves_unexpectedAt hstop _ (t :: rest) _

theorem moreTerms_moves (hstop : σ (.emptyAt stop) = .emptyAt stop') (terms : List Name)
    (rest : List Token) (hless : rest.length < tokens.length)
    (hless' : (rest.map (Token.move σ)).length < tokens'.length) :
    Moves σ id (moreTerms stop ⟨terms, rest, hless⟩)
      (moreTerms stop' ⟨terms, rest.map (Token.move σ), hless'⟩) := by
  rw [moreTerms, moreTerms]
  cases rest with
  | nil => exact .ok terms [] _ _
  | cons t rest =>
      refine .ite (fun hcomma => ?_) fun hcomma => .ok terms (t :: rest) _ _
      refine (expectTerm_moves hstop rest).elim .error fun term left hshorter hshorter' => ?_
      exact moreTerms_moves hstop (terms ++ [term]) left _ _
termination_by rest.length
decreasing_by
  subst_vars
  exact Nat.lt_succ_of_lt hshorter

theorem arguments_moves (hstop : σ (.emptyAt stop) = .emptyAt stop') (tokens : List Token) :
    Moves σ id (arguments stop tokens) (arguments stop' (tokens.map (Token.move σ))) := by
  have hterm : (tokens.map (Token.move σ)).head?.any Token.isTerm
      = tokens.head?.any Token.isTerm := by
    cases tokens with
    | nil => rfl
    | cons t rest => rfl
  unfold arguments
  rw [hterm]
  refine .ite (fun hfirst => ?_) fun hfirst => ?_
  · refine (expectTerm_moves hstop tokens).elim .error fun first rest hless hless' => ?_
    dsimp only [id]
    refine (moreTerms_moves hstop [first] rest hless hless').elim .error
      fun terms rest hless hless' => ?_
    dsimp only [id]
    exact (expect_moves hstop .rightParen rest).elim .error fun close rest _ _ => .ok terms rest _ _
  · exact (expect_moves hstop .rightParen tokens).elim .error fun close rest _ _ => .ok [] rest _ _

theorem identityAtom_moves (hstop : σ (.emptyAt stop) = .emptyAt stop') (tokens : List Token) :
    Moves σ id (identityAtom stop tokens) (identityAtom stop' (tokens.map (Token.move σ))) := by
  unfold identityAtom
  refine (expectTerm_moves hstop tokens).elim .error fun left rest hless hless' => ?_
  dsimp only [id]
  refine (expect_moves hstop .equals rest).elim .error fun sign rest hless hless' => ?_
  dsimp only
  exact (expectTerm_moves hstop rest).elim .error
    fun right rest _ _ => .ok (identity left right) rest _ _

theorem atomic_moves (hstop : σ (.emptyAt stop) = .emptyAt stop') (tokens : List Token) :
    Moves σ id (atomic stop tokens) (atomic stop' (tokens.map (Token.move σ))) := by
  cases tokens with
  | nil => exact moves_unexpectedAt hstop _ [] _
  | cons t rest =>
      rw [List.map_cons]
      unfold atomic
      dsimp only
      rw [Token.nextIs_move]
      refine .ite (fun hequals => identityAtom_moves hstop (t :: rest)) fun hequals => ?_
      refine .ite (fun hfalsity => .ok falsity rest _ _) fun hfalsity => ?_
      refine .ite (fun hname => ?_) fun hname => moves_unexpectedAt hstop _ (t :: rest) _
      cases rest with
      | nil => exact .ok (atom t.text []) [] _ _
      | cons u rest =>
          refine .ite (fun hparen => ?_) fun hparen => .ok (atom t.text []) (u :: rest) _ _
          exact (arguments_moves hstop rest).elim .error
            fun terms rest _ _ => .ok (atom t.text terms) rest _ _

theorem boundVariable_moves (hstop : σ (.emptyAt stop) = .emptyAt stop') (tokens : List Token) :
    Moves σ id (boundVariable stop tokens) (boundVariable stop' (tokens.map (Token.move σ))) := by
  unfold boundVariable
  refine (expect_moves hstop .leftParen tokens).elim .error fun opening rest hless hless' => ?_
  dsimp only
  refine (expect_moves hstop .identifier rest).elim .error fun var rest hless hless' => ?_
  dsimp only
  exact (expect_moves hstop .rightParen rest).elim .error
    fun close rest _ _ => .ok var.text rest _ _

/-! ## §3. All formulas. -/

theorem quantifier?_move (t : Token) (rest : List Token) :
    quantifier? (t.move σ) (rest.map (Token.move σ)) = quantifier? t rest := by
  unfold quantifier?
  rw [Token.nextIs_move]
  rfl

theorem Chain.goesOnWith_move (c : Chain) (t : Token) :
    c.goesOnWith (t.move σ) = c.goesOnWith t := by
  cases c with
  | disjunction => rfl
  | conjunction => rfl

-- One theorem for each reader, on the measure by which the readers end.
mutual

theorem implication_moves {σ : Span → Span} {stop stop' : Nat}
    (hstop : σ (.emptyAt stop) = .emptyAt stop') (tokens : List Token) :
    Moves σ id (implication stop tokens) (implication stop' (tokens.map (Token.move σ))) := by
  rw [implication, implication]
  refine (chain_moves hstop .disjunction tokens).elim .error fun left rest hless hless' => ?_
  cases rest with
  | nil => exact .ok left [] _ _
  | cons t rest =>
      have hshorter : rest.length + 1 < tokens.length := hless
      refine .ite (fun hgreater => ?_) fun hgreater => .ok left (t :: rest) _ _
      exact (implication_moves hstop rest).elim .error
        fun right rest _ _ => .ok (imp left right) rest _ _
termination_by 6 * tokens.length + 5

theorem chain_moves {σ : Span → Span} {stop stop' : Nat}
    (hstop : σ (.emptyAt stop) = .emptyAt stop') (c : Chain) (tokens : List Token) :
    Moves σ id (chain stop c tokens) (chain stop' c (tokens.map (Token.move σ))) := by
  rw [chain, chain]
  exact (part_moves hstop c tokens).elim .error
    fun left rest hless hless' => moreParts_moves hstop c left rest hless hless'
termination_by 6 * tokens.length + match c with
  | .disjunction => 4
  | .conjunction => 2
decreasing_by
  · cases c <;> simp only <;> omega
  · omega

theorem moreParts_moves {σ : Span → Span} {stop stop' : Nat} {tokens tokens' : List Token}
    (hstop : σ (.emptyAt stop) = .emptyAt stop') (c : Chain) (left : Formula)
    (rest : List Token) (hless : rest.length < tokens.length)
    (hless' : (rest.map (Token.move σ)).length < tokens'.length) :
    Moves σ id (moreParts stop c ⟨left, rest, hless⟩)
      (moreParts stop' c ⟨left, rest.map (Token.move σ), hless'⟩) := by
  rw [moreParts, moreParts]
  cases rest with
  | nil => exact .ok left [] _ _
  | cons t rest =>
      show Moves σ id _ (if c.goesOnWith (t.move σ) then _ else _)
      rw [c.goesOnWith_move]
      refine .ite (fun hsign => ?_) fun hsign => .ok left (t :: rest) _ _
      refine (part_moves hstop c rest).elim .error fun right rest' hshorter hshorter' => ?_
      exact moreParts_moves hstop c (join c.connective left right) rest' _ _
termination_by 6 * rest.length
decreasing_by
  all_goals subst_vars
  all_goals simp only [List.length_cons]
  · cases c <;> simp only <;> omega
  · omega

theorem part_moves {σ : Span → Span} {stop stop' : Nat}
    (hstop : σ (.emptyAt stop) = .emptyAt stop') (c : Chain) (tokens : List Token) :
    Moves σ id (part stop c tokens) (part stop' c (tokens.map (Token.move σ))) := by
  cases c with
  | disjunction =>
      rw [part_disjunction, part_disjunction]
      exact chain_moves hstop .conjunction tokens
  | conjunction =>
      rw [part_conjunction, part_conjunction]
      exact unary_moves hstop tokens
termination_by 6 * tokens.length + match c with
  | .disjunction => 3
  | .conjunction => 1

theorem unary_moves {σ : Span → Span} {stop stop' : Nat}
    (hstop : σ (.emptyAt stop) = .emptyAt stop') (tokens : List Token) :
    Moves σ id (unary stop tokens) (unary stop' (tokens.map (Token.move σ))) := by
  cases tokens with
  | nil =>
      rw [List.map_nil, unary, unary]
      exact atomic_moves hstop []
  | cons t rest =>
      rw [List.map_cons, unary, unary, quantifier?_move]
      refine .ite (fun htilde => ?_) fun htilde => ?_
      · exact (unary_moves hstop rest).elim .error fun inner rest _ _ => .ok (neg inner) rest _ _
      · cases quantifier? t rest with
        | some quantifier =>
            dsimp only
            refine (boundVariable_moves hstop rest).elim .error fun var left hless hless' => ?_
            dsimp only [id]
            exact (unary_moves hstop left).elim .error
              fun body rest _ _ => .ok (bind quantifier var body) rest _ _
        | none =>
            refine .ite (fun hparen => ?_) fun hparen => atomic_moves hstop (t :: rest)
            refine (implication_moves hstop rest).elim .error fun inner left hless hless' => ?_
            dsimp only [id]
            exact (expect_moves hstop .rightParen left).elim .error
              fun close rest _ _ => .ok inner rest _ _
termination_by 6 * tokens.length + 0
decreasing_by
  all_goals subst_vars
  all_goals simp only [List.length_cons]
  all_goals omega

end

end Formula

end NaturalDeduction
