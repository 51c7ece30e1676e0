import LintCorpus.Console
import LintCorpus.CorpusResult

/-!
Merging the runs of packages into one result. A finding counts once for each key. Under a target
lint only findings of that rule are kept and the others are counted. Errors of the compiler itself
are no findings, and a run cannot report findings for another package.
-/
namespace LintCorpus

structure PackageRun where
  package : Package
  invocation : Invocation
  parsed : Parsed
  allowCount : Option Int := none

inductive AggregateFault where
  | duplicateRun (package : Text)
  | invalid (fault : ResultFault)
deriving DecidableEq

def AggregateFault.message : AggregateFault → Text
  | .duplicateRun package => "package " ++ package.quoted ++ " was run more than once"
  | .invalid fault => fault.message

/-- Whether a finding is of the rule under test; all are when there is none. -/
def Diagnostic.matchesTarget (target : Option Text) (d : Diagnostic) : Bool :=
  target.all fun rule => d.rule == rule

namespace PackageRun

def name (run : PackageRun) : Text := run.package.name

/-- The class of a run once the target lint has been applied. A broken build stays one. A run that
exited with zero and keeps nothing is clean; one that exited otherwise has failed to build. -/
def settle (status : Status) (returncode : Option Int) (kept : List Diagnostic) : Status :=
  if status.brokeBuild then status
  else if !kept.isEmpty then .lintFindings
  else if returncode = some 0 then .success
  else .compileError

def outcome (run : PackageRun) (kept : List Diagnostic) (filteredOut : Int) : Outcome :=
  let status := settle run.invocation.status run.invocation.returncode kept
  { name := run.name
    status
    returncode := run.invocation.returncode
    diagnostics := kept.length
    filteredOut
    unparsedOutput := run.parsed.unparsed
    parseIssues := run.parsed.issues.length
    duration := run.invocation.duration
    allowCount := run.allowCount
    tail :=
      if status.brokeBuild || run.parsed.isPartial then run.invocation.defaultTail else [] }

end PackageRun

/-- The findings of one run as they are looked at: the keys met so far in any run, what is kept, how
many others the target lint is not about, and what is told. -/
structure Sifted where
  seen : List DiagnosticKey := []
  kept : List Diagnostic := []
  filteredOut : Int := 0
  messages : List Message := []

namespace Sifted

def discarded (package : Text) (d : Diagnostic) : Message :=
  ⟨.warn, package ++ " - discarding diagnostic attributed to " ++ d.package.quoted ++ ": " ++
    d.message⟩

def add (target : Option Text) (package : Text) (s : Sifted) (d : Diagnostic) : Sifted :=
  if d.package ≠ package then { s with messages := s.messages ++ [discarded package d] }
  else if s.seen.contains d.key then s
  else if d.matchesTarget target then
    { s with seen := d.key :: s.seen, kept := s.kept ++ [d] }
  else { s with seen := d.key :: s.seen, filteredOut := s.filteredOut + 1 }

end Sifted

structure Merged where
  packages : List Text := []
  outcomes : Dict Outcome := .empty
  byRule : Dict (List Diagnostic) := .empty
  seen : List DiagnosticKey := []
  messages : List Message := []

namespace Merged

def fileAll (byRule : Dict (List Diagnostic)) (ds : List Diagnostic) : Dict (List Diagnostic) :=
  ds.foldl (fun filed d => filed.insert d.rule ((filed.find? d.rule).getD [] ++ [d])) byRule

def sift (target : Option Text) (m : Merged) (run : PackageRun) : Sifted :=
  run.parsed.lintDiagnostics.foldl (Sifted.add target run.name)
    { seen := m.seen, messages := m.messages }

def add (target : Option Text) (m : Merged) (run : PackageRun) : Merged :=
  let s := m.sift target run
  { packages := m.packages ++ [run.name]
    outcomes := m.outcomes.insert run.name (run.outcome s.kept s.filteredOut)
    byRule := fileAll m.byRule s.kept
    seen := s.seen
    messages := s.messages }

/-- Merges runs up to the first one whose package has been run already, and tells that package. -/
def addAll (target : Option Text) (m : Merged) : List PackageRun → Merged × Option Text
  | [] => (m, none)
  | run :: rest =>
    if m.outcomes.contains run.name then (m, some run.name)
    else addAll target (m.add target run) rest

def result (m : Merged) (target : Option Text) (root : Path) : CorpusResult where
  root
  targetLint := target
  packages := m.packages
  outcomes := m.outcomes
  diagnostics := m.byRule

end Merged

/-- Where the corpus is when nothing is said: beside the first package, or here. -/
def Aggregate.defaultRoot (workingDirectory : Path) (runs : List PackageRun) : Path :=
  (runs.head?.map fun run => run.package.path.parent).getD workingDirectory

def aggregate (runs : List PackageRun) (target : Option Text) (root : Path) :
    Except AggregateFault CorpusResult :=
  match Merged.addAll target {} runs with
  | (_, some package) => .error (.duplicateRun package)
  | (m, none) => (m.result target root).check.mapError AggregateFault.invalid

/-- What merging runs tells, up to a package that is run again. No target lint changes it. -/
def aggregateWarnings (runs : List PackageRun) : List Message :=
  (Merged.addAll none {} runs).1.messages

end LintCorpus
