/-
  NaturalDeduction.Formula.Parser
  ───────────────────────────────
  **READING FORMULAS.**

      implication := disjunction ('>' implication)?
      disjunction := conjunction ('v' conjunction)*
      conjunction := unary ('&' unary)*
      unary       := '~' unary | quantifier '(' name ')' unary | primary
      primary     := '(' implication ')' | atom
      atom        := '0' | term '=' term | name ('(' (term (',' term)*)? ')')?

  `>` groups to the right, `v` and `&` to the left.  The words `forall` and
  `exists` are quantifiers only before a `(`, and `v` is a connective only
  between two formulas, so all three also serve as names.  A `0` before `=` is
  a term.

  Disjunctions and conjunctions are chains, which are read in one way; they
  differ in their signs and in what their parts are.  A reader returns what it
  read together with the tokens that are left, and the fact that these are fewer
  than it was given; that is why reading ends.
-/
import NaturalDeduction.Formula.Printer
import NaturalDeduction.Token.Cursor

namespace NaturalDeduction.Formula

open Token (nextIs)

/-! ## §1. Results of reading. -/

/-- Something read from the front of `tokens`, and what is left of them. -/
structure Parsed (α : Type) (tokens : List Token) where
  value : α
  rest : List Token
  shorter : rest.length < tokens.length

/-- A reading of the front of `tokens`, or the complaint at the first token that
does not fit. -/
abbrev Reading (α : Type) (tokens : List Token) := Except Unexpected (Parsed α tokens)

/-! ## §2. Single tokens. -/

/-- The next token, which has to be of this kind.  The text has `stop` bytes. -/
def expect (stop : Nat) (kind : Token.Kind) (tokens : List Token) : Reading Token tokens :=
  match _h : Cursor.expect ⟨tokens, stop⟩ kind with
  | .error e => .error e
  | .ok (t, behind) => .ok ⟨t, behind.ahead, by
      obtain ⟨-, hahead, -⟩ := Cursor.expect_eq_ok_iff.mp _h
      rw [show tokens = t :: behind.ahead from hahead]
      exact Nat.lt_succ_self _⟩

/-- The next token, which has to be a term. -/
def expectTerm (stop : Nat) (tokens : List Token) : Reading Name tokens :=
  match tokens with
  | [] => .error (Token.unexpectedAt stop [] .term)
  | t :: rest =>
      if t.isTerm then .ok ⟨t.text, rest, by simp⟩
      else .error (Token.unexpectedAt stop (t :: rest) .term)

/-! ## §3. Atoms. -/

/-- Reads further terms as long as a comma comes before each. -/
def moreTerms (stop : Nat) {tokens : List Token} (terms : Parsed (List Name) tokens) :
    Reading (List Name) tokens :=
  match _h : terms.rest with
  | [] => .ok terms
  | t :: rest =>
      if t.kind = .comma then
        match expectTerm stop rest with
        | .error e => .error e
        | .ok term =>
            moreTerms stop ⟨terms.value ++ [term.value], term.rest, by
              have := terms.shorter
              have := term.shorter
              rw [_h, List.length_cons] at *
              omega⟩
      else .ok terms
termination_by terms.rest.length
decreasing_by
  have := term.shorter
  rw [_h, List.length_cons]
  omega

/-- Reads the terms of an atom and the `)` behind them; the `(` has been read.
There may be no terms at all. -/
def arguments (stop : Nat) (tokens : List Token) : Reading (List Name) tokens :=
  if tokens.head?.any Token.isTerm then
    match expectTerm stop tokens with
    | .error e => .error e
    | .ok first =>
        match moreTerms stop ⟨[first.value], first.rest, first.shorter⟩ with
        | .error e => .error e
        | .ok terms =>
            match expect stop .rightParen terms.rest with
            | .error e => .error e
            | .ok close => .ok ⟨terms.value, close.rest, by
                have := terms.shorter
                have := close.shorter
                omega⟩
  else
    match expect stop .rightParen tokens with
    | .error e => .error e
    | .ok close => .ok ⟨[], close.rest, close.shorter⟩

/-- Reads `term '=' term`. -/
def identityAtom (stop : Nat) (tokens : List Token) : Reading Formula tokens :=
  match expectTerm stop tokens with
  | .error e => .error e
  | .ok left =>
      match expect stop .equals left.rest with
      | .error e => .error e
      | .ok sign =>
          match expectTerm stop sign.rest with
          | .error e => .error e
          | .ok right => .ok ⟨identity left.value right.value, right.rest, by
              have := left.shorter
              have := sign.shorter
              have := right.shorter
              omega⟩

/-- Reads an atom. -/
def atomic (stop : Nat) (tokens : List Token) : Reading Formula tokens :=
  match tokens with
  | [] => .error (Token.unexpectedAt stop [] .primary)
  | t :: rest =>
      -- `0 = x` is an identity, so the sign is looked for before the `0`.
      if nextIs .equals rest then identityAtom stop (t :: rest)
      else if t.kind = .falsity then .ok ⟨falsity, rest, by simp⟩
      else if t.kind = .identifier then
        match _h : rest with
        | [] => .ok ⟨atom t.text [], rest, by rw [_h]; simp⟩
        | u :: rest' =>
            if u.kind = .leftParen then
              match arguments stop rest' with
              | .error e => .error e
              | .ok terms => .ok ⟨atom t.text terms.value, terms.rest, by
                  have := terms.shorter
                  simp only [List.length_cons]
                  omega⟩
            else .ok ⟨atom t.text [], rest, by rw [_h]; simp⟩
      else .error (Token.unexpectedAt stop (t :: rest) .primary)

/-! ## §4. Formulas. -/

/-- The chains of formulas that are read from the left, each part behind the
sign of the chain. -/
inductive Chain where
  | disjunction
  | conjunction
deriving DecidableEq

/-- What the parts of a chain are joined by. -/
def Chain.connective : Chain → Connective
  | disjunction => .disj
  | conjunction => .conj

/-- Does a token go on with a chain?  The sign `v` is a word like any other. -/
def Chain.goesOnWith : Chain → Token → Bool
  | disjunction, t => t.isWord Connective.disj.sign
  | conjunction, t => t.kind = .ampersand

/-- The quantifier that a token stands for, if a `(` comes next. -/
def quantifier? (t : Token) (rest : List Token) : Option Quantifier :=
  if nextIs .leftParen rest then
    if t.isWord Quantifier.all.word then some .all
    else if t.isWord Quantifier.ex.word then some .ex
    else none
  else none

/-- Reads the variable of a quantifier, in parentheses. -/
def boundVariable (stop : Nat) (tokens : List Token) : Reading Name tokens :=
  match expect stop .leftParen tokens with
  | .error e => .error e
  | .ok opening =>
      match expect stop .identifier opening.rest with
      | .error e => .error e
      | .ok var =>
          match expect stop .rightParen var.rest with
          | .error e => .error e
          | .ok close => .ok ⟨var.value.text, close.rest, by
              have := opening.shorter
              have := var.shorter
              have := close.shorter
              omega⟩

mutual

/-- Reads an implication. -/
def implication (stop : Nat) (tokens : List Token) : Reading Formula tokens :=
  match chain stop .disjunction tokens with
  | .error e => .error e
  | .ok left =>
      match _h : left.rest with
      | [] => .ok left
      | t :: rest =>
          if t.kind = .greater then
            match implication stop rest with
            | .error e => .error e
            | .ok right => .ok ⟨imp left.value right.value, right.rest, by
                have := left.shorter
                have := right.shorter
                rw [_h, List.length_cons] at *
                omega⟩
          else .ok left
termination_by 6 * tokens.length + 5
decreasing_by
  · omega
  · have := left.shorter
    rw [_h, List.length_cons] at this
    omega

/-- Reads a disjunction or a conjunction. -/
def chain (stop : Nat) (c : Chain) (tokens : List Token) : Reading Formula tokens :=
  match part stop c tokens with
  | .error e => .error e
  | .ok left => moreParts stop c left
termination_by 6 * tokens.length + match c with
  | .disjunction => 4
  | .conjunction => 2
decreasing_by
  · cases c <;> simp only <;> omega
  · have := left.shorter
    omega

/-- Reads further parts of a chain as long as its sign comes before each. -/
def moreParts (stop : Nat) (c : Chain) {tokens : List Token} (left : Parsed Formula tokens) :
    Reading Formula tokens :=
  match _h : left.rest with
  | [] => .ok left
  | t :: rest =>
      if c.goesOnWith t then
        match part stop c rest with
        | .error e => .error e
        | .ok right =>
            moreParts stop c ⟨join c.connective left.value right.value, right.rest, by
              have := left.shorter
              have := right.shorter
              rw [_h, List.length_cons] at *
              omega⟩
      else .ok left
termination_by 6 * left.rest.length
decreasing_by
  · rw [_h, List.length_cons]
    cases c <;> simp only <;> omega
  · have := right.shorter
    rw [_h, List.length_cons]
    omega

/-- Reads a part of a chain: the parts of a disjunction are conjunctions. -/
def part (stop : Nat) (c : Chain) (tokens : List Token) : Reading Formula tokens :=
  match c with
  | .disjunction => chain stop .conjunction tokens
  | .conjunction => unary stop tokens
termination_by 6 * tokens.length + match c with
  | .disjunction => 3
  | .conjunction => 1
decreasing_by
  · omega
  · omega

/-- Reads a negation, a quantified formula, a formula in parentheses or an
atom. -/
def unary (stop : Nat) (tokens : List Token) : Reading Formula tokens :=
  match tokens with
  | [] => atomic stop []
  | t :: rest =>
      if t.kind = .tilde then
        match unary stop rest with
        | .error e => .error e
        | .ok inner => .ok ⟨neg inner.value, inner.rest, by
            have := inner.shorter
            simp only [List.length_cons]
            omega⟩
      else
        -- A quantifier comes first: `forall(x)` is also how an atom starts.
        match quantifier? t rest with
        | some quantifier =>
            match boundVariable stop rest with
            | .error e => .error e
            | .ok var =>
                match unary stop var.rest with
                | .error e => .error e
                | .ok body => .ok ⟨bind quantifier var.value body.value, body.rest, by
                    have := var.shorter
                    have := body.shorter
                    simp only [List.length_cons]
                    omega⟩
        | none =>
            if t.kind = .leftParen then
              match implication stop rest with
              | .error e => .error e
              | .ok inner =>
                  match expect stop .rightParen inner.rest with
                  | .error e => .error e
                  | .ok close => .ok ⟨inner.value, close.rest, by
                      have := inner.shorter
                      have := close.shorter
                      simp only [List.length_cons]
                      omega⟩
            else atomic stop (t :: rest)
termination_by 6 * tokens.length + 0
decreasing_by
  · simp only [List.length_cons]
    omega
  · have := var.shorter
    simp only [List.length_cons]
    omega
  · simp only [List.length_cons]
    omega

end

/-! ## §5. Whole texts. -/

/-- The longest formula at the start of a text.  What comes after it is left
alone. -/
def parse (text : String) : Except Unexpected Formula :=
  let start := Cursor.ofText text
  match implication start.stop start.ahead with
  | .error e => .error e
  | .ok parsed => .ok parsed.value

/-- The formula that makes up the whole of a text. -/
def parseExact (text : String) : Except Unexpected Formula :=
  let start := Cursor.ofText text
  match implication start.stop start.ahead with
  | .error e => .error e
  | .ok parsed =>
      let behind : Cursor := ⟨parsed.rest, start.stop⟩
      if behind.isAtEnd then .ok parsed.value else .error (behind.unexpected .endOfFormula)

end NaturalDeduction.Formula
