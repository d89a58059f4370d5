/-
  NaturalDeduction.Report.Basic
  ─────────────────────────────
  What is printed for the proofs that were checked: a section for each, and a
  summary at the end.
-/
import NaturalDeduction.Report.Diagnostic

namespace NaturalDeduction

/-- How the check of a proof came out. -/
inductive Outcome where
  | valid (proof : VerifiedProof)
  | invalid (diagnostic : Diagnostic)
deriving DecidableEq

namespace Outcome

/-- Was the proof accepted? -/
def isValid : Outcome → Bool
  | valid _ => true
  | invalid _ => false

/-- The outcome for the text of a proof. -/
def ofSource (options : CheckOptions) (path source : String) : Outcome :=
  match checkSource options source with
  | .ok proof => valid proof
  | .error failure => invalid (failure.diagnose path source)

/-- The two lines that tell the outcome. -/
def response : Outcome → String
  | valid _ => "Response: Success\nReason: proof is valid"
  | invalid diagnostic => "Response: Failure\nReason: " ++ diagnostic.title

end Outcome

/-- The outcome for one file. -/
structure FileReport where
  path : String
  outcome : Outcome
deriving DecidableEq

/-- The ending of a plural. -/
def plural (n : Nat) : String := if n = 1 then "" else "s"

/-- A number with its noun. -/
def counted (n : Nat) (noun : String) : String := Nat.repr n ++ " " ++ noun ++ plural n

namespace FileReport

/-- The section of a file. -/
def render (style : Style) (report : FileReport) : String :=
  let details := match report.outcome with
    | .valid _ => ""
    | .invalid diagnostic => "\n" ++ diagnostic.render style ++ "\n"
  style.bold report.path ++ "\n" ++ report.outcome.response ++ "\n" ++ details ++ "\n"

/-- The line of a file in the summary. -/
def summaryLine (style : Style) (report : FileReport) : String :=
  match report.outcome with
  | .invalid _ => " " ++ style.red "✗" ++ " " ++ report.path ++ "\n"
  | .valid proof =>
      let remark := match proof.conclusion? with
        | none => "(empty)"
        | some conclusion =>
            "(" ++ counted proof.length "line" ++ ") ⊢ " ++ conclusion.render
      " " ++ style.green "✓" ++ " " ++ report.path ++ " " ++ style.gray remark ++ "\n"

end FileReport

/-- The number of rejected proofs. -/
def rejections (reports : List FileReport) : Nat :=
  reports.countP fun report => !report.outcome.isValid

/-- The summary of all files. -/
def summary (style : Style) (reports : List FileReport) : String :=
  let total := "Checked " ++ counted reports.length "proof" ++ ":\n"
  let lines := String.join (reports.map (FileReport.summaryLine style))
  let failed := rejections reports
  let verdict :=
    if failed = 0 then "\nAll proofs valid!\n"
    else
      " " ++ style.red "✗" ++ " " ++ style.bold (Nat.repr failed) ++ " proof" ++ plural failed
        ++ " with errors.\n"
  total ++ lines ++ verdict

end NaturalDeduction
