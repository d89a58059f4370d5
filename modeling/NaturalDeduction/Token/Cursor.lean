/-
  NaturalDeduction.Token.Cursor
  ─────────────────────────────
  A place in a list of tokens, and what is said when the token there is not
  the one that was wanted.

  The end of the text counts as a place too: nothing stands there, and its
  span is empty.
-/
import NaturalDeduction.Token.Scan

namespace NaturalDeduction

/-! ## §1. What was wanted and what was there. -/

/-- What a reader wanted at some place. -/
inductive Expected where
  | token (kind : Token.Kind)
  | term
  | primary
  | endOfFormula
deriving DecidableEq

/-- How a message speaks of what was wanted. -/
def Expected.describe : Expected → String
  | token kind => kind.describe
  | term => "a term"
  | primary => "`(`, `0` or a predicate"
  | endOfFormula => "end of formula"

/-- Something else stood where a reader wanted `expected`: the text of the next
token, or nothing at the end of the text. -/
structure Unexpected where
  expected : Expected
  found : Option String
  span : Span
deriving DecidableEq

/-- How a message speaks of the next token. -/
def describeFound : Option String → String
  | some text => "`" ++ text ++ "`"
  | none => "end of input"

/-- The message for something unexpected. -/
def Unexpected.message (u : Unexpected) : String :=
  "expected " ++ u.expected.describe ++ ", found " ++ describeFound u.found

namespace Token

/-- The text of the next token, or nothing at the end. -/
def foundAt (tokens : List Token) : Option String := tokens.head?.map Token.text

/-- The span of the next token, or the empty span at the end of the text, which
has `stop` bytes. -/
def spanAt (stop : Nat) (tokens : List Token) : Span :=
  match tokens with
  | [] => .emptyAt stop
  | t :: _ => t.span

/-- The complaint that `expected` does not stand here. -/
def unexpectedAt (stop : Nat) (tokens : List Token) (expected : Expected) : Unexpected :=
  ⟨expected, foundAt tokens, spanAt stop tokens⟩

/-- Is the next token of this kind? -/
def nextIs (kind : Kind) (tokens : List Token) : Bool := tokens.head?.any fun t => t.kind = kind

@[simp] theorem nextIs_cons {kind : Kind} {t : Token} {rest : List Token} :
    nextIs kind (t :: rest) = decide (t.kind = kind) := rfl

end Token

/-! ## §2. Cursors. -/

/-- A cursor over the tokens of a text: those that are still ahead, and the
length of the text in bytes. -/
structure Cursor where
  ahead : List Token
  stop : Nat
deriving DecidableEq

namespace Cursor

/-- The cursor before the first token of a text. -/
def ofText (text : String) : Cursor := ⟨Token.tokenize text, byteLength text.toList⟩

/-- The token `n` places after the next one. -/
def peekNth (c : Cursor) (n : Nat) : Option Token := c.ahead[n]?

/-- The next token. -/
def peek (c : Cursor) : Option Token := c.peekNth 0

/-- Is the next token of this kind? -/
def peekIs (c : Cursor) (kind : Token.Kind) : Bool := c.peek.any fun t => t.kind = kind

/-- Have all tokens been passed? -/
def isAtEnd (c : Cursor) : Bool := c.ahead.isEmpty

/-- The next token, or nothing at the end of the text. -/
def found (c : Cursor) : Option String := Token.foundAt c.ahead

/-- Where the next token is. -/
def nextSpan (c : Cursor) : Span := Token.spanAt c.stop c.ahead

/-- The complaint that `expected` does not stand here. -/
def unexpected (c : Cursor) (expected : Expected) : Unexpected := ⟨expected, c.found, c.nextSpan⟩

/-- The next token and the cursor behind it. -/
def advance? (c : Cursor) : Option (Token × Cursor) :=
  match c.ahead with
  | [] => none
  | t :: rest => some (t, ⟨rest, c.stop⟩)

/-- The next token, if it is of this kind, and the cursor behind it. -/
def eat? (c : Cursor) (kind : Token.Kind) : Option (Token × Cursor) :=
  if c.peekIs kind then c.advance? else none

/-- The next token, which has to be of this kind, and the cursor behind it. -/
def expect (c : Cursor) (kind : Token.Kind) : Except Unexpected (Token × Cursor) :=
  match c.eat? kind with
  | some taken => .ok taken
  | none => .error (c.unexpected (.token kind))

/-- A cursor that moves on has passed one token, on the same text. -/
theorem advance?_eq_some_iff {c c' : Cursor} {t : Token} :
    c.advance? = some (t, c') ↔ c.ahead = t :: c'.ahead ∧ c'.stop = c.stop := by
  obtain ⟨ahead, stop⟩ := c
  obtain ⟨ahead', stop'⟩ := c'
  cases ahead with
  | nil => simp [advance?]
  | cons u rest =>
      simp only [advance?, Option.some.injEq, Prod.mk.injEq, Cursor.mk.injEq, List.cons.injEq]
      exact ⟨fun ⟨ht, hrest, hstop⟩ => ⟨⟨ht, hrest⟩, hstop.symm⟩,
        fun ⟨⟨ht, hrest⟩, hstop⟩ => ⟨ht, hrest, hstop.symm⟩⟩

theorem peekIs_of_ahead {c : Cursor} {kind : Token.Kind} {t : Token} {rest : List Token}
    (h : c.ahead = t :: rest) : c.peekIs kind = decide (t.kind = kind) := by
  unfold peekIs peek peekNth
  rw [h]
  rfl

/-- A token is eaten exactly if it comes next and is of the kind asked for. -/
theorem eat?_eq_some_iff {c c' : Cursor} {kind : Token.Kind} {t : Token} :
    c.eat? kind = some (t, c') ↔ t.kind = kind ∧ c.ahead = t :: c'.ahead ∧ c'.stop = c.stop := by
  unfold eat?
  split
  · next hkind =>
      rw [advance?_eq_some_iff]
      refine ⟨fun h => ⟨?_, h⟩, fun h => h.2⟩
      rwa [peekIs_of_ahead h.1, decide_eq_true_eq] at hkind
  · next hkind =>
      refine ⟨fun h => absurd h (by simp), fun ⟨ht, hahead, _⟩ => ?_⟩
      rw [peekIs_of_ahead hahead, decide_eq_true_eq] at hkind
      exact absurd ht hkind

/-- What has to come next is passed, and it was of the kind asked for. -/
theorem expect_eq_ok_iff {c c' : Cursor} {kind : Token.Kind} {t : Token} :
    c.expect kind = .ok (t, c') ↔ t.kind = kind ∧ c.ahead = t :: c'.ahead ∧ c'.stop = c.stop := by
  rw [← eat?_eq_some_iff]
  unfold expect
  cases c.eat? kind with
  | none => simp
  | some taken => simp

/-- What does not come next is complained about on the spot. -/
theorem expect_eq_error {c : Cursor} {kind : Token.Kind} {e : Unexpected}
    (h : c.expect kind = .error e) : e = c.unexpected (.token kind) := by
  unfold expect at h
  split at h
  · exact absurd h (by simp)
  · exact (Except.error.inj h).symm

end Cursor

end NaturalDeduction
