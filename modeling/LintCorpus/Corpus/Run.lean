import LintCorpus.Aggregate
import LintCorpus.Config.Load
import LintCorpus.Linter.Invoke

/-!
Linting a corpus: find the packages, run the linter on each, merge the runs. Runs may be recorded
in any order; the result lists them in the order of the catalog.
-/
namespace LintCorpus

inductive RunEvent where
  | started (packages : List Text)
  | entered (package : Package)
  | finished (run : PackageRun)

inductive CorpusFault where
  | catalog (fault : CatalogFault)
  | config (fault : ConfigFault)
  | merge (fault : AggregateFault)
deriving DecidableEq

def CorpusFault.message : CorpusFault → Text
  | .catalog fault => fault.message
  | .config fault => fault.message
  | .merge fault => fault.message

/-- A run under way: the files as they are, what was told so far, the runs recorded, and what ended
it before its time. -/
structure CorpusProgress where
  files : FileTree
  messages : List Message := []
  events : List RunEvent := []
  recorded : List PackageRun := []
  fault : Option FileFault := none

structure CorpusRun where
  files : FileTree
  messages : List Message := []
  events : List RunEvent := []
  result : Except (Failure CorpusFault) CorpusResult

namespace Corpus

def linter (program : List Text) (root : Path) (config : RunConfig) : Linter where
  program
  root
  timeout := some config.timeout
  extraEnv := config.extraEnv
  touchRoots := config.touchCrateRoots

def overridesIn (limits : StreamLimits) (stdout : Bytes) : Except Json.Excess Nat :=
  let events := (StreamReader.read limits {} stdout).2
  match StreamEvent.stops events with
  | excess :: _ => .error excess
  | [] => .ok (Record.countOverrides (StreamEvent.records events))

/-- How many attributes a check found; a check that broke down found nothing. -/
def allowCount (limits : StreamLimits) (i : Invocation) : Except Json.Excess (Option Int) :=
  if i.status == .crashed || i.status == .timeout then .ok none
  else (overridesIn limits i.stdout).map fun count => some (count : Int)

def invoke (l : Linter) (launch : Launcher) (p : CorpusProgress) (package : Package)
    (levels : List Text) (mode : InvocationMode) : CorpusProgress × Option InvokedPackage :=
  let command := l.commandWith p.files.workingDirectory package.name levels
  let outcome := l.invokeCommand launch p.files package command mode
  let told := { p with files := outcome.files, messages := p.messages ++ outcome.messages }
  match outcome.result with
  | .error fault => ({ told with fault := some fault }, none)
  | .ok invoked => (told, some invoked)

def record (p : CorpusProgress) (run : PackageRun) : CorpusProgress :=
  { p with recorded := p.recorded ++ [run], events := p.events ++ [.finished run] }

/-- What was read, or that it could not be read ends the run. -/
def orEnd {α : Type} (p : CorpusProgress) (read : Except Json.Excess α)
    (next : α → CorpusProgress) : CorpusProgress :=
  match read with
  | .error excess => { p with fault := some (.unreadable excess) }
  | .ok a => next a

/-- Lints a package, and looks for attributes that allow `checked` if it could be built. -/
def lintPackage (l : Linter) (launch : Launcher) (target checked : Option Text)
    (p : CorpusProgress) (package : Package) : CorpusProgress :=
  let entered := { p with events := p.events ++ [.entered package] }
  match invoke l launch entered package (Linter.lintFlags target) .lint with
  | (linted, none) => linted
  | (linted, some invoked) =>
    orEnd linted (Parsed.ofStream l.limits invoked.invocation.stdout package.name) fun parsed =>
      let run : PackageRun :=
        { package := invoked.package, invocation := invoked.invocation, parsed }
      match checked with
      | none => record linted run
      | some rule =>
        if invoked.invocation.status.brokeBuild then record linted run
        else
          match invoke l launch linted invoked.package (Linter.allowFlags rule) .allowCheck with
          | (looked, none) => looked
          | (looked, some found) =>
            orEnd looked (allowCount l.limits found.invocation) fun allowCount =>
              record looked { run with allowCount }

/-- Lints packages one after the other, until something nobody expects happens. -/
def lintAll (l : Linter) (launch : Launcher) (target checked : Option Text)
    (p : CorpusProgress) : List Package → CorpusProgress
  | [] => p
  | package :: rest =>
    let next := lintPackage l launch target checked p package
    if next.fault.isSome then next else lintAll l launch target checked next rest

def inCatalogOrder (packages : List Package) (runs : List PackageRun) : List PackageRun :=
  let position (run : PackageRun) : Nat := (packages.map Package.name).idxOf run.name
  runs.mergeSort fun a b => decide (position a ≤ position b)

def conclude (c : Catalog) (target : Option Text) (p : CorpusProgress) : CorpusRun :=
  match p.fault with
  | some fault => { p with result := .error (.aborted fault) }
  | none =>
    let runs := inCatalogOrder c.packages p.recorded
    { files := p.files
      messages := p.messages ++ aggregateWarnings runs
      events := p.events
      result := (aggregate runs target c.root).mapError fun fault => .reported (.merge fault) }

def lintCatalog (t : FileTree) (launch : Launcher) (program : List Text) (config : RunConfig)
    (c : Catalog) : CorpusRun :=
  let checked := if config.checkAllows then config.targetLint else none
  let begun : CorpusProgress :=
    { files := t
      messages := c.warnings
      events := [.started (c.packages.map Package.name)] }
  conclude c config.targetLint
    (lintAll (linter program c.root config) launch config.targetLint checked begun c.packages)

def run (t : FileTree) (launch : Launcher) (program : List Text) (config : RunConfig)
    (root : Path) : CorpusRun :=
  if config.checkAllows && config.targetLint.isNone then
    { files := t, result := .error (.reported (.config .allowsWithoutLint)) }
  else
    match Catalog.search t root with
    | .error fault => { files := t, result := .error (fault.mapReported CorpusFault.catalog) }
    | .ok c =>
      match c.fault with
      | some fault =>
        { files := t, messages := c.warnings, result := .error (.aborted fault) }
      | none => lintCatalog t launch program config c

end Corpus
end LintCorpus
