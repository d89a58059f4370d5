/-
  NaturalDeduction.Command.Arguments
  ──────────────────────────────────
  The command line:

      lrcheck check [-c <config>] [--plain] [--] [<files...>]

  `--help` and `help` ask for help wherever they stand before a `--`.  Behind a
  `--` every argument is a file.
-/

namespace NaturalDeduction.Command

/-! ## §1. What is asked for. -/

/-- The name of the program. -/
def programName : String := "lrcheck"

/-- A request to check files. -/
structure CheckRequest where
  /-- The settings file, if one is named. -/
  config : Option String := none
  /-- Is output to be without colours? -/
  plain : Bool := false
  files : List String := []
deriving DecidableEq

/-- What a command line asks for. -/
inductive Request where
  | check (request : CheckRequest)
  | help
  | checkHelp
deriving DecidableEq

/-- What is wrong with a command line. -/
inductive UsageFault where
  | trailingAfterHelp
  | unrecognized (argument : String)
  | missingValue (option : String)
  | duplicateValue (option value : String)
  | missingCommand
deriving DecidableEq

/-- The message for a faulty command line. -/
def UsageFault.message : UsageFault → String
  | trailingAfterHelp => "Trailing arguments are not allowed after `help`."
  | unrecognized argument => "Unrecognized argument: " ++ argument ++ "\n"
  | missingValue option => "No value provided for option '" ++ option ++ "'.\n"
  | duplicateValue option value =>
      "Error parsing option '" ++ option ++ "' with value '" ++ value
        ++ "': duplicate values provided\n"
  | missingCommand => "One of the following subcommands must be present:\n    help\n    check\n"

/-- What `lrcheck --help` says. -/
def helpText : String :=
  "Usage: lrcheck <command> [<args>]\n\n"
    ++ "A natural-deduction proof checker.\n\n"
    ++ "Options:\n  --help, help      display usage information\n\n"
    ++ "Commands:\n  check             Check natural-deduction proof files.\n"

/-- What `lrcheck check --help` says. -/
def checkHelpText : String :=
  "Usage: lrcheck check [-c <config>] [--plain] [--] [<files...>]\n\n"
    ++ "Check natural-deduction proof files.\n\n"
    ++ "Positional Arguments:\n  files             the proof files to check.\n\n"
    ++ "Options:\n  -c, --config      path to lrcheck.toml config file.\n"
    ++ "  --plain           print without colors.\n"
    ++ "  --help, help      display usage information\n"

/-! ## §2. Reading the command line. -/

/-- Does the argument ask for help? -/
def isHelp (argument : String) : Bool := argument = "--help" || argument = "help"

/-- Does the argument start with a dash? -/
def isDashed (argument : String) : Bool := argument.toList.head? = some '-'

/-- Does the argument name the option for the settings file? -/
def isConfigOption (argument : String) : Bool := argument = "-c" || argument = "--config"

/-- Reads the arguments of `check`.  `help` tells whether help was asked for,
and `ended` whether a `--` has been read. -/
def readCheck (help ended : Bool) (request : CheckRequest) :
    List String → Except UsageFault Request
  | [] => .ok (if help then .checkHelp else .check request)
  | argument :: rest =>
      if ended then
        readCheck help ended { request with files := request.files ++ [argument] } rest
      else if isHelp argument then readCheck true ended request rest
      else if argument = "--" then readCheck help true request rest
      else if isDashed argument then
        if help then .error .trailingAfterHelp
        else if argument = "--plain" then readCheck help ended { request with plain := true } rest
        else if isConfigOption argument then
          match rest with
          | [] => .error (.missingValue argument)
          -- The value is the next argument, whatever it looks like.
          | value :: rest' =>
              if request.config.isSome then .error (.duplicateValue argument value)
              else readCheck help ended { request with config := some value } rest'
        else .error (.unrecognized argument)
      else readCheck help ended { request with files := request.files ++ [argument] } rest

/-- Reads the arguments of the program. -/
def read (help ended : Bool) : List String → Except UsageFault Request
  | [] => if help then .ok .help else .error .missingCommand
  | argument :: rest =>
      if !ended && isHelp argument then read true ended rest
      else if !ended && argument = "--" then read help true rest
      else if !ended && isDashed argument then
        .error (if help then .trailingAfterHelp else .unrecognized argument)
      else if argument = "check" then readCheck help false {} rest
      else .error (.unrecognized argument)

/-- What a command line asks for. -/
def Request.ofArguments (arguments : List String) : Except UsageFault Request :=
  read false false arguments

end NaturalDeduction.Command
