import LintCorpus.CrateRoots
import LintCorpus.Linter.Classify
import LintCorpus.Number.Shortest
import LintCorpus.Stream.Reader
import LintCorpus.Text.ShellQuoted
import LintCorpus.Text.Shorten
import LintCorpus.Workspace

/-!
Running the linter on one package. Every package has a build directory of its own below the root
of the corpus. A linter that cannot be started counts as crashed.
-/
namespace LintCorpus

namespace Linter

/-- Flags cannot forbid a lint when there is none. -/
structure FlagFault where
deriving DecidableEq

def FlagFault.message (_ : FlagFault) : Text := "allow checking requires a target lint"

def flagName (rule : Text) : Text := Record.toolPrefix ++ rule

def everyLint : Text := flagName "all"

def flag (level : Text) (lint : Text) : List Text := [level, lint]

def lintFlags : Option Text → List Text
  | none => flag "--warn" everyLint
  | some rule => flag "--allow" everyLint ++ flag "--warn" (flagName rule)

def allowFlags (rule : Text) : List Text :=
  flag "--allow" everyLint ++ flag "--forbid" (flagName rule)

def flags (target : Option Text) (mode : InvocationMode) : Except FlagFault (List Text) :=
  match mode, target with
  | .lint, _ => .ok (lintFlags target)
  | .allowCheck, some rule => .ok (allowFlags rule)
  | .allowCheck, none => .error {}

end Linter

/-- How the linter is run on the packages of a corpus: its program, the root of the corpus, how
many seconds a run may take, variables set for it, whether crate roots are marked first, and the
limits of the records that it may write. -/
structure Linter where
  program : List Text
  root : Path
  timeout : Option Binary64 := some (Binary64.ofInt 600)
  extraEnv : Dict Text := .empty
  touchRoots : Bool := true
  limits : StreamLimits := {}

structure InvokedPackage where
  package : Package
  invocation : Invocation

/-- The end of a run: the files as they are since, what the person at the terminal is told, and the
run unless something nobody expects happened. -/
structure InvokeOutcome where
  files : FileTree
  messages : List Message := []
  result : Except FileFault InvokedPackage

namespace Linter

def targetDirectory (l : Linter) (workingDirectory : Path) (name : Text) : Path :=
  ((l.root.absolute workingDirectory).child targetDirectoryName).child name

def outputArguments (directory : Path) : List Text :=
  ["--", "--quiet", "--message-format=json", "--target-dir", directory.toText, "--",
    "--cap-lints", "warn"]

def commandWith (l : Linter) (workingDirectory : Path) (name : Text) (levels : List Text) :
    List Text :=
  l.program ++ outputArguments (l.targetDirectory workingDirectory name) ++ levels

def command (l : Linter) (workingDirectory : Path) (name : Text) (target : Option Text)
    (mode : InvocationMode) : Except FlagFault (List Text) := do
  return l.commandWith workingDirectory name (← flags target mode)

def environment (l : Linter) : Dict Text :=
  l.extraEnv.entries.foldl (fun d entry => d.insert entry.1 entry.2)
    (Dict.empty.insert "CARGO_TERM_COLOR" "never")

def hintWidth : Nat := 160

def lastLine? (lines : List Text) : Option Text :=
  (lines.reverse.find? fun line => !line.strip.isEmpty).map fun line =>
    line.strip.shorten hintWidth

def describeCode (returncode : Option Int) : Text := (returncode.map Text.ofInt).getD "None"

def failureHeadline (timeout : Option Binary64) (i : Invocation) : Text :=
  match i.status with
  | .timeout => "timed out after " ++ (timeout.getD (.zero false)).brief ++ "s"
  | .crashed => "linter crashed (exit " ++ describeCode i.returncode ++ ")"
  | _ => "build failed (exit " ++ describeCode i.returncode ++ ")"

/-- Whether the warning about a run can be worded: only with a limit can a run take too long. -/
def hasWording (timeout : Option Binary64) (i : Invocation) : Bool :=
  timeout.isSome || i.status != .timeout

def failureMessage (timeout : Option Binary64) (package : Package) (i : Invocation) : Message :=
  let command : Text := "command: " ++ Text.shellCommand i.command
  let place : Text := "cwd: " ++ package.path.toText
  let hint : List Text :=
    (lastLine? (Utf8.decode i.stderr).lines).toList.map fun (line : Text) => "stderr: " ++ line
  let headline : Text := package.name ++ " - " ++ failureHeadline timeout i
  ⟨.warn, Text.join "\n  " (headline :: command :: place :: hint)⟩

/-- Whether a failed run is worth a warning. Forbidden lints make checks for attributes end with
another code than zero, so only crashes count there. -/
def isWorthWarning (i : Invocation) : Bool :=
  match i.mode with
  | .lint => i.status.brokeBuild
  | .allowCheck => i.status == .crashed || i.status == .timeout

def touchWarning (name : Text) (fault : Toml.LoadFault) : Message :=
  ⟨.warn, name ++ " - could not touch crate roots: " ++ fault.message⟩

/-- Marks the roots of a package if that is wanted. A refusal or a bad manifest is told, anything
else ends the program. -/
def touch (l : Linter) (t : FileTree) (package : Package) :
    FileTree × Except FileFault (List Message) :=
  if !l.touchRoots then (t, .ok [])
  else
    match CrateRoots.touch t package.path with
    | (touched, .ok _) => (touched, .ok [])
    | (touched, .error (.document fault)) =>
      (touched, .ok [touchWarning package.name (.document fault)])
    | (touched, .error (.file (.refused error path))) =>
      (touched, .ok [touchWarning package.name (.file (.refused error path))])
    | (touched, .error (.file fault)) => (touched, .error fault)

def ofParsed (name : Text) (mode : InvocationMode) (c : Capture) (parsed : Parsed) :
    Invocation where
  package := name
  command := c.command
  mode
  startedAt := c.startedAt
  finishedAt := c.finishedAt
  returncode := c.returncode
  status := classify c.returncode c.timedOut c.stderr parsed
  stdout := c.stdout
  stderr := c.stderr

def ofCapture (limits : StreamLimits) (name : Text) (mode : InvocationMode) (c : Capture) :
    Except Json.Excess Invocation :=
  (Parsed.ofStream limits c.stdout name).map (ofParsed name mode c)

def notStarted (name : Text) (command : List Text) (mode : InvocationMode) (fault : StartFault) :
    Invocation where
  package := name
  command
  mode
  returncode := none
  status := .crashed
  stderr := Utf8.encode ("failed to start linter: " ++ fault.message)

/-- The package as it is known after a run. Checks for attributes say nothing about the build. -/
def settled (package : Package) (i : Invocation) : Package :=
  match i.mode with
  | .lint => { package with state := if i.status.brokeBuild then .brokenBuild else .buildable }
  | .allowCheck => package

def answered (l : Linter) (name : Text) (command : List Text) (mode : InvocationMode) :
    Except StartFault Capture → Except Json.Excess Invocation
  | .ok captured => ofCapture l.limits name mode captured
  | .error fault => .ok (notStarted name command mode fault)

def request (l : Linter) (package : Package) (command : List Text) : LaunchRequest where
  command
  directory := package.path
  environment := l.environment
  timeout := l.timeout

def invokeCommand (l : Linter) (launch : Launcher) (t : FileTree) (package : Package)
    (command : List Text) (mode : InvocationMode) : InvokeOutcome :=
  match l.touch t package with
  | (files, .error fault) => { files, result := .error fault }
  | (files, .ok messages) =>
    match l.answered package.name command mode (launch (l.request package command)) with
    | .error excess => { files, messages, result := .error (.unreadable excess) }
    | .ok i =>
      let warnings := if isWorthWarning i then [failureMessage l.timeout package i] else []
      { files, messages := messages ++ warnings, result := .ok ⟨settled package i, i⟩ }

end Linter
end LintCorpus
