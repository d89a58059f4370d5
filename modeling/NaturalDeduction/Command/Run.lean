/-
  NaturalDeduction.Command.Run
  ────────────────────────────
  **A RUN OF THE PROGRAM**, from its arguments and surroundings to what it
  prints and the code that it ends with.
-/
import NaturalDeduction.Command.Arguments
import NaturalDeduction.Command.Files
import NaturalDeduction.Command.Log
import NaturalDeduction.Report.Basic

namespace NaturalDeduction.Command

/-- What a run prints, and the code that it ends with. -/
structure Output where
  code : Nat
  stdout : String := ""
  stderr : String := ""
deriving DecidableEq

/-! ## §1. Settings. -/

/-- Why the settings could not be had. -/
inductive SettingsFault where
  | unreadable (path : String) (fault : ReadFault)
  | invalid (path : String)
deriving DecidableEq

/-- The message for settings that could not be had. -/
def SettingsFault.message : SettingsFault → String
  | unreadable path fault => "could not read `" ++ path ++ "`: " ++ fault.message
  | invalid path => "invalid config `" ++ path ++ "`: TOML parse error"

/-- The settings in a file. -/
def readSettings (path : String) : Contents → Except SettingsFault Settings
  | .error fault => .error (.unreadable path fault)
  | .ok text =>
      match Settings.parse? text with
      | some settings => .ok settings
      | none => .error (.invalid path)

/-- The settings for a run: those of the named file, else of the nearest, else
the usual ones. -/
def loadSettings (workspace : Workspace) (config : Option String) :
    Except SettingsFault Settings :=
  match config with
  | some path => readSettings path (workspace.read path)
  | none =>
      match workspace.settingsFile with
      | some (path, contents) => readSettings path contents
      | none => .ok {}

/-! ## §2. Files. -/

/-- The extension of proofs. -/
def proofExtension : String := "nd"

/-- The extension of sequents. -/
def sequentExtension : String := "sq"

/-- Checks one file: the outcome, and what the log says about it. -/
def checkFile (workspace : Workspace) (options : CheckOptions) (path : String) :
    Outcome × List LogLine :=
  let started := LogLine.ofFile .info ("checking path=" ++ path)
  let extension := extension? path
  if extension = some sequentExtension then
    (.invalid { title := "unsupported sequent notation in `" ++ path ++ "`" }, [started])
  else if extension ≠ some proofExtension then
    (.invalid {
      title := "file extension not allowed: `" ++ path ++ "`"
      note := some ("natural-deduction proofs use the `." ++ proofExtension ++ "` extension") },
     [started])
  else
    match workspace.read path with
    | .error fault =>
        let warning :=
          LogLine.ofFile .warn ("could not read proof path=" ++ path ++ " err=" ++ fault.message)
        (.invalid { title := "could not read `" ++ path ++ "`: " ++ fault.message },
         [started, warning])
    | .ok source =>
        let events := (sourceEvents options source).map LogLine.ofEvent
        let finished := match checkSource options source with
          | .ok proof => "proof is valid path=" ++ path ++ " lines=" ++ Nat.repr proof.length
          | .error failure =>
              "proof is invalid path=" ++ path ++ " offset=" ++ Nat.repr failure.offset
                ++ " failure=" ++ failure.message
        (Outcome.ofSource options path source, started :: events ++ [.ofFile .info finished])

/-! ## §3. The whole run. -/

/-- Checks the files of a request. -/
def runCheck (workspace : Workspace) (level : LogLevel) (request : CheckRequest) : Output :=
  match loadSettings workspace request.config with
  | .error fault =>
      let diagnostic : Diagnostic := { title := fault.message }
      { code := 1, stderr := diagnostic.render ⟨!request.plain⟩ ++ "\n" }
  | .ok settings =>
      let style : Style := ⟨settings.color && !request.plain⟩
      let results := request.files.map fun path =>
        (path, checkFile workspace settings.options path)
      let reports := results.map fun (path, outcome, _) => FileReport.mk path outcome
      { code := if rejections reports = 0 then 0 else 1
        stdout := String.join (reports.map (FileReport.render style)) ++ summary style reports
        stderr := renderLog level (results.flatMap fun (_, _, log) => log) }

/-- **Runs the program.** -/
def run (workspace : Workspace) (level : LogLevel) (arguments : List String) : Output :=
  match Request.ofArguments arguments with
  | .error fault =>
      { code := 1
        stderr := fault.message ++ "\nRun " ++ programName ++ " --help for more information.\n" }
  | .ok .help => { code := 0, stdout := helpText ++ "\n" }
  | .ok .checkHelp => { code := 0, stdout := checkHelpText ++ "\n" }
  | .ok (.check request) => runCheck workspace level request

end NaturalDeduction.Command
