/-
  NaturalDeduction.Text.Span
  ──────────────────────────
  Stretches of text, counted in UTF-8 bytes.

  A span is relative to the text it was measured in: a span inside a formula
  moves by the formula's place in its line (`Span.forward`), and a span inside
  a line by the line's place in the proof.
-/

namespace NaturalDeduction

/-! ## §1. Byte lengths. -/

/-- The number of bytes that a list of characters takes in UTF-8. -/
def byteLength : List Char → Nat
  | [] => 0
  | c :: cs => c.utf8Size + byteLength cs

@[simp] theorem byteLength_nil : byteLength [] = 0 := rfl

@[simp] theorem byteLength_cons (c : Char) (cs : List Char) :
    byteLength (c :: cs) = c.utf8Size + byteLength cs := rfl

@[simp] theorem byteLength_append (as bs : List Char) :
    byteLength (as ++ bs) = byteLength as + byteLength bs := by
  induction as with
  | nil => simp
  | cons c cs ih =>
      simp only [List.cons_append, byteLength_cons, ih]
      omega

/-- What is left of a text after its first `n` bytes. -/
def dropBytes : Nat → List Char → List Char
  | _, [] => []
  | n, c :: cs => if n = 0 then c :: cs else dropBytes (n - c.utf8Size) cs

/-- The first `n` bytes of a text. -/
def takeBytes : Nat → List Char → List Char
  | _, [] => []
  | n, c :: cs => if n = 0 then [] else c :: takeBytes (n - c.utf8Size) cs

/-! ## §2. Spans. -/

/-- A stretch of bytes: `start` belongs to it, `stop` does not. -/
structure Span where
  start : Nat
  stop : Nat
deriving DecidableEq

namespace Span

/-- The empty span at one place. -/
def emptyAt (offset : Nat) : Span := ⟨offset, offset⟩

/-- The span as seen from a text that starts `bytes` earlier. -/
def forward (s : Span) (bytes : Nat) : Span := ⟨s.start + bytes, s.stop + bytes⟩

/-- From the start of one span to the end of another, never ending before it
starts. -/
def through (s t : Span) : Span := ⟨s.start, max t.stop s.start⟩

/-- The part of a text that a span covers. -/
def slice (s : Span) (text : List Char) : List Char :=
  takeBytes (s.stop - s.start) (dropBytes s.start text)

end Span

end NaturalDeduction
