import LintCorpus.Diagnostic
import LintCorpus.Invocation

/-!
Classing a finished run by how it ended and what it wrote. Lints never fail a build, so a code
other than zero without errors still says that the package did not build.
-/
namespace LintCorpus.Linter

def panicMarkers : List Text :=
  ["error: internal compiler error", "the compiler unexpectedly panicked"]

def buildFailureMarker : Text := "could not compile"

def reportsPanic (stderr : Bytes) : Bool :=
  let t := Utf8.decode stderr
  panicMarkers.any fun marker => t.includes marker

def reportsBuildFailure (stderr : Bytes) (parsed : Parsed) : Bool :=
  parsed.diagnostics.any Diagnostic.isCompilerError ||
    (Utf8.decode stderr).includes buildFailureMarker

/-- The class of a run that was not cut short. -/
def classifyExit (returncode : Int) (stderr : Bytes) (parsed : Parsed) : Status :=
  if returncode < 0 || reportsPanic stderr then .crashed
  else if returncode ≠ 0 && reportsBuildFailure stderr parsed then .compileError
  else if !parsed.lintDiagnostics.isEmpty then .lintFindings
  else if returncode = 0 then .success
  else .compileError

def classify (returncode : Option Int) (timedOut : Bool) (stderr : Bytes) (parsed : Parsed) :
    Status :=
  if timedOut then .timeout
  else
    match returncode with
    | none => .crashed
    | some code => classifyExit code stderr parsed

end LintCorpus.Linter
