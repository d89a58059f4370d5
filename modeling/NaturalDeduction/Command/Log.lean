/-
  NaturalDeduction.Command.Log
  ────────────────────────────
  The log of the program, and how much of it is written.
-/
import NaturalDeduction.Proof.Journal

namespace NaturalDeduction.Command

/-- How much is to be logged: each level includes those before it. -/
inductive LogLevel where
  | off
  | error
  | warn
  | info
  | debug
  | trace
deriving DecidableEq

namespace LogLevel

/-- The place of a level in the order. -/
def rank : LogLevel → Nat
  | off => 0
  | error => 1
  | warn => 2
  | info => 3
  | debug => 4
  | trace => 5

/-- How a level is written in the log, five characters wide. -/
def tag : LogLevel → String
  | off => "  OFF"
  | error => "ERROR"
  | warn => " WARN"
  | info => " INFO"
  | debug => "DEBUG"
  | trace => "TRACE"

/-- A level as it is asked for, by its name in any case or by its rank. -/
def ofText? (text : String) : Option LogLevel :=
  let word := String.ofList (text.toList.map Char.toLower)
  if word = "off" || word = "0" then some off
  else if word = "error" || word = "1" || word = "" then some error
  else if word = "warn" || word = "2" then some warn
  else if word = "info" || word = "3" then some info
  else if word = "debug" || word = "4" then some debug
  else if word = "trace" || word = "5" then some trace
  else none

/-- The level that is asked for, or `warn`. -/
def ofRequest (request : Option String) : LogLevel := (request.bind ofText?).getD warn

end LogLevel

/-- The name of the variable that asks for a level. -/
def logVariable : String := "LRCHECK_LOG"

/-- A line of the log. -/
structure LogLine where
  level : LogLevel
  /-- The part of the program that speaks. -/
  source : String
  text : String
deriving DecidableEq

namespace LogLine

/-- A line of the log as it is written. -/
def render (line : LogLine) : String :=
  line.level.tag ++ " " ++ line.source ++ ": " ++ line.text ++ "\n"

/-- A line about a file. -/
def ofFile (level : LogLevel) (text : String) : LogLine :=
  ⟨level, "lrcheck::cli::check_command", text⟩

/-- The line about something that happened in the course of a check. -/
def ofEvent : CheckEvent → LogLine
  | .lookedUp number index =>
      ⟨.trace, "lrcheck::semant::rules",
        "looking up dependency line=" ++ Nat.repr number ++ " index=" ++ Nat.repr index⟩
  | .verified number formula rule =>
      ⟨.debug, "lrcheck::semant::checker",
        "verified line=" ++ Nat.repr number ++ " formula=" ++ formula.render ++ " rule=\""
          ++ rule.name ++ "\""⟩

end LogLine

/-- The lines of a log up to a level, as they are written. -/
def renderLog (level : LogLevel) (lines : List LogLine) : String :=
  String.join ((lines.filter fun line => line.level.rank ≤ level.rank).map LogLine.render)

end NaturalDeduction.Command
