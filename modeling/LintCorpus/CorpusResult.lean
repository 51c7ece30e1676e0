import LintCorpus.Dict
import LintCorpus.Invocation
import LintCorpus.Diagnostic
import LintCorpus.Package
import LintCorpus.Text.Quoted

/-!
The result of linting a corpus: an outcome for every package and the findings by rule. A valid
result files every finding under its own rule, names only packages of the run and holds no key
twice.
-/
namespace LintCorpus

structure Outcome where
  name : Text
  status : Status
  returncode : Option Int := none
  diagnostics : Int := 0
  filteredOut : Int := 0
  unparsedOutput : Bool := false
  parseIssues : Int := 0
  duration : Binary64 := .zero false
  allowCount : Option Int := none
  tail : Text := []
deriving DecidableEq

namespace Outcome

/-- False when the lint under test let nothing through of what the run found. -/
def evaluated (o : Outcome) : Bool := !(o.status == .success && o.filteredOut > 0)

/-- Equality of outcomes, with durations compared as numbers. -/
def same (a b : Outcome) : Bool :=
  a.duration.same b.duration && { a with duration := b.duration } == b

end Outcome

structure Summary where
  attempted : Int := 0
  succeeded : Int := 0
  hadFindings : Int := 0
  failedToBuild : Int := 0
  crashed : Int := 0
  timedOut : Int := 0
  diagnostics : Int := 0
deriving DecidableEq

/-- The outcomes and findings of a corpus, packages in catalog order. -/
structure CorpusResult where
  root : Path
  targetLint : Option Text := none
  packages : List Text := []
  outcomes : Dict Outcome := .empty
  diagnostics : Dict (List Diagnostic) := .empty
deriving DecidableEq

inductive ResultFault where
  | misfiled (rule under : Text)
  | unknownPackage (package : Text)
  | duplicate (key : DiagnosticKey)
deriving DecidableEq

namespace CorpusResult

def allDiagnostics (r : CorpusResult) : List Diagnostic := r.diagnostics.values.flatten

/-- All findings, each with the rule it is filed under. -/
def filed (r : CorpusResult) : List (Text × Diagnostic) :=
  r.diagnostics.entries.flatMap fun entry => entry.2.map (entry.1, ·)

def diagnosticsFor (r : CorpusResult) (package : Text) : List Diagnostic :=
  Diagnostic.sort (r.allDiagnostics.filter fun d => d.package == package)

def keys (r : CorpusResult) : List DiagnosticKey := (r.allDiagnostics.map Diagnostic.key).eraseDups

def summary (r : CorpusResult) : Summary :=
  let statuses := r.outcomes.values.map Outcome.status
  { attempted := statuses.length
    succeeded := statuses.count .success
    hadFindings := statuses.count .lintFindings
    failedToBuild := statuses.count .compileError
    crashed := statuses.count .crashed
    timedOut := statuses.count .timeout
    diagnostics := r.diagnostics.values.flatten.length }

/-- Looks at one finding, given the packages of the run and the keys met before. -/
def checkOne (packages : List Text) (seen : List DiagnosticKey) (entry : Text × Diagnostic) :
    Except ResultFault (List DiagnosticKey) :=
  let (rule, d) := entry
  if d.rule ≠ rule then .error (.misfiled d.rule rule)
  else if !packages.contains d.package then .error (.unknownPackage d.package)
  else if seen.contains d.key then .error (.duplicate d.key)
  else .ok (d.key :: seen)

def check (r : CorpusResult) : Except ResultFault CorpusResult := do
  let _ ← r.filed.foldlM (checkOne r.packages) []
  return r

def same (a b : CorpusResult) : Bool :=
  { a with outcomes := b.outcomes } == b && a.outcomes.keys == b.outcomes.keys &&
    (a.outcomes.values.zip b.outcomes.values).all fun pair => pair.1.same pair.2

end CorpusResult

def quotedOr (t : Option Text) : Text := (t.map Text.quoted).getD "None"

def DiagnosticKey.describe (k : DiagnosticKey) : Text :=
  let number (i : Option Int) : Text := (i.map Text.ofInt).getD "None"
  "DiagnosticKey(package=" ++ k.package.quoted ++ ", rule=" ++ k.rule.quoted ++ ", file=" ++
    quotedOr k.file ++ ", line=" ++ number k.line ++ ", column=" ++ number k.column ++
    ", message=" ++ k.message.quoted ++ ")"

def ResultFault.message : ResultFault → Text
  | .misfiled rule under => "diagnostic for " ++ rule.quoted ++ " filed under " ++ under.quoted
  | .unknownPackage package => "diagnostic references unknown package " ++ package.quoted
  | .duplicate key => "duplicate diagnostic " ++ key.describe

end LintCorpus
