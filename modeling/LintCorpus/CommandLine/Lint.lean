import LintCorpus.CommandLine.RunOptions
import LintCorpus.CommandLine.Session
import LintCorpus.Corpus.Run
import LintCorpus.Gate
import LintCorpus.Report.Markdown
import LintCorpus.Stored.Report

/-!
The command that lints a corpus, reports what was found and gives a verdict.
-/
namespace LintCorpus.CommandLine

def lintForms : List OptionForm :=
  [{ long := "--lint", kind := .text },
    { long := "--jobs", short := some 'j'.toNat, kind := .count 1 },
    { long := "--timeout", kind := .seconds (Binary64.ofRatio 1 1000) },
    { long := "--expected-clean", kind := .path },
    { long := "--fail-on-compile-error", kind := .flag },
    { long := "--check-allows", kind := .flag },
    { long := "--json-out", kind := .path },
    { long := "--report-out", kind := .path },
    { long := "--config", kind := .path },
    { long := "--skip-build", kind := .flag },
    { long := "--no-emoji", kind := .flag },
    { long := "--no-color", kind := .flag },
    { long := "--no-progress", kind := .flag }]

def lintArguments : List Text := ["WORKSPACE", "CRATES_ROOT"]

def lintOptions (a : Arguments) : RunOptions where
  workspace := a.paths.headD default
  cratesRoot := (a.paths.drop 1).headD default
  lint := a.text? "--lint"
  jobs := a.count? "--jobs"
  timeout := a.seconds? "--timeout"
  expectedClean := a.path? "--expected-clean"
  failOnCompileError := a.hasFlag "--fail-on-compile-error"
  checkAllows := a.hasFlag "--check-allows"
  jsonOut := a.path? "--json-out"
  reportOut := a.path? "--report-out"
  configPath := a.path? "--config"
  skipBuild := a.hasFlag "--skip-build"
  emoji := !a.hasFlag "--no-emoji"
  color := !a.hasFlag "--no-color"
  progress := !a.hasFlag "--no-progress"

/-- What a command finds around it: the programs of the system and the number of processors. -/
structure Surroundings where
  launch : Launcher
  processors : Int := 1

def prepare (s : Surroundings) (t : FileTree) (o : RunOptions) (config : RunConfig) :
    Except (Failure WorkspaceFault) (Workspace × Option Text) := do
  let w ← Workspace.prepare t s.launch o.workspace (!config.skipBuild)
  match config.targetLint with
  | none => return (w, none)
  | some name => return (w, some (← w.resolveLint s.launch name))

def emit (o : RunOptions) (config : OutputConfig) (r : CorpusResult) : Step Unit := do
  let report := Report.render r
  match config.reportOut with
  | some p =>
    Step.change fun t => StoredReport.writeFile t p report
    Step.say o.emoji .ok ("Report written to " ++ p.toText)
  | none => Step.answer report
  match config.jsonOut with
  | some p =>
    Step.change fun t => StoredReport.writeFile t p (StoredReport.write r)
    Step.say o.emoji .ok ("JSON result written to " ++ p.toText)
  | none => return ()

def verdictMessages (d : GateDecision) (s : Summary) : List Message :=
  let unknown := d.unknownExpected.map fun (name : Text) =>
    (⟨.warn, name ++ " is listed as expected clean but was not linted"⟩ : Message)
  let reasons := d.reasons.map fun (reason : Text) => (⟨.fail, reason⟩ : Message)
  let last : Message :=
    match d.signal with
    | .ok => ⟨.ok, Text.ofInt s.attempted ++ " package(s) linted, " ++ Text.ofInt s.diagnostics ++
        " diagnostic(s); gate passed"⟩
    | .fail => ⟨.fail, "Gate failed with " ++ Text.ofNat d.reasons.length ++ " problem(s)"⟩
  unknown ++ reasons ++ [last]

def lintingMessage (o : RunOptions) (config : RunConfig) (processors : Int) : Message :=
  let lint : Text := config.targetLint.getD "all lints"
  ⟨.info, "Linting " ++ o.cratesRoot.toText ++ " for " ++ lint ++ " with " ++
    Text.ofInt (config.jobs.getD processors) ++ " job(s)"⟩

def lint (s : Surroundings) (o : RunOptions) : Step Signal := do
  let config ← Step.require o.emoji OptionsFault.message (o.config (← Step.files))
  let (workspace, rule) ←
    Step.require o.emoji WorkspaceFault.message (prepare s (← Step.files) o config.run)
  let runConfig := { config.run with targetLint := rule }
  Step.tell o.emoji [lintingMessage o runConfig s.processors]
  let run :=
    Corpus.run (← Step.files) s.launch (workspace.command .cargoClippy) runConfig o.cratesRoot
  Step.setFiles run.files
  Step.tell config.output.emoji run.messages
  let result ← Step.require o.emoji CorpusFault.message run.result
  emit o config.output result
  let decision := Gate.evaluate result config.policy
  Step.tell o.emoji (verdictMessages decision result.summary)
  return decision.signal

end LintCorpus.CommandLine
