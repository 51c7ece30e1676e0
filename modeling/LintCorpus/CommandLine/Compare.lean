import LintCorpus.CommandLine.Arguments
import LintCorpus.CommandLine.Session
import LintCorpus.Diff
import LintCorpus.Report.Markdown
import LintCorpus.Stored.Report

/-!
The command that compares two stored results.
-/
namespace LintCorpus.CommandLine

def compareForms : List OptionForm :=
  [{ long := "--fail-on-introduced", kind := .flag }, { long := "--no-emoji", kind := .flag },
    { long := "--no-color", kind := .flag }]

def compareArguments : List Text := ["BASELINE", "CURRENT"]

def differentLints (before after : CorpusResult) : List Message :=
  if before.targetLint = after.targetLint then []
  else [⟨.warn, "Comparing results for different lints: " ++ quotedOr before.targetLint ++ " vs " ++
    quotedOr after.targetLint⟩]

/-- Compares two stored results and gives the exit status. -/
def compare (a : Arguments) : Step Nat := do
  let emoji := !a.hasFlag "--no-emoji"
  let load (p : Path) : Step CorpusResult := do
    Step.require emoji ReportFault.message (StoredReport.load (← Step.files) p)
  let before ← load (a.paths.headD default)
  let after ← load ((a.paths.drop 1).headD default)
  Step.tell emoji (differentLints before after)
  let d := ResultDiff.between before after
  Step.answer (Report.renderDiff d)
  return if a.hasFlag "--fail-on-introduced" && !d.introduced.isEmpty then 1 else 0

end LintCorpus.CommandLine
