/-
  NaturalDeduction.Report.Style
  ─────────────────────────────
  Colours for a terminal.
-/

namespace NaturalDeduction

/-- Is output written with colours? -/
structure Style where
  color : Bool
deriving DecidableEq

namespace Style

/-- The terminal code that ends every change of colour. -/
def resetCode : String := "\x1b[0m"

/-- The terminal code for bold text. -/
def boldCode : String := "\x1b[1m"

/-- A text between a terminal code and the reset, or as it is. -/
def paint (style : Style) (code text : String) : String :=
  if style.color then code ++ text ++ resetCode else text

/-- A text in bold. -/
def bold (style : Style) (text : String) : String := style.paint boldCode text

/-- A text in red. -/
def red (style : Style) (text : String) : String := style.paint "\x1b[31m" text

/-- A text in green. -/
def green (style : Style) (text : String) : String := style.paint "\x1b[32m" text

/-- A text in gray. -/
def gray (style : Style) (text : String) : String := style.paint "\x1b[90m" text

/-- What points at an error: bold and bright red. -/
def error (style : Style) (text : String) : String :=
  style.paint (boldCode ++ "\x1b[91m") text

/-- The frame around a quoted line: bold and bright blue. -/
def frame (style : Style) (text : String) : String :=
  style.paint (boldCode ++ "\x1b[94m") text

/-- The word before a note: bold and bright green. -/
def note (style : Style) (text : String) : String :=
  style.paint (boldCode ++ "\x1b[92m") text

end Style

/-- A text of `n` spaces. -/
def spaces (n : Nat) : String := String.ofList (List.replicate n ' ')

end NaturalDeduction
