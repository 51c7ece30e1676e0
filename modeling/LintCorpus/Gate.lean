import LintCorpus.Config.Basic
import LintCorpus.CorpusResult

/-!
Whether a run passes. It fails when a package crashed or timed out, when one failed to compile and
that counts, and when a package expected to be clean reports the lint under test.
-/
namespace LintCorpus

inductive Signal where
  | ok
  | fail
deriving DecidableEq, Repr

namespace Signal

def name : Signal → Text
  | .ok => "ok"
  | .fail => "fail"

def exitCode : Signal → Nat
  | .ok => 0
  | .fail => 1

end Signal

/-- The reasons against a run, and packages expected to be clean that were not part of it. -/
structure GateDecision where
  reasons : List Text := []
  unknownExpected : List Text := []
deriving DecidableEq

namespace GateDecision

def signal (d : GateDecision) : Signal := if d.reasons.isEmpty then .ok else .fail

end GateDecision

namespace Gate

def violates (policy : PolicyConfig) (status : Status) : Bool :=
  match status with
  | .crashed | .timeout => true
  | .compileError => policy.compileErrorsFail
  | .success | .lintFindings => false

/-- One reason for each outcome whose class makes the run fail, in the order of names. -/
def statusReasons (r : CorpusResult) (policy : PolicyConfig) : List Text :=
  (Text.sort r.outcomes.keys).filterMap fun name =>
    (r.outcomes.find? name).bind fun outcome =>
      if violates policy outcome.status then some (name ++ ": " ++ outcome.status.name) else none

def unclean (r : CorpusResult) (policy : PolicyConfig) (lint : Text) : List Text :=
  let flagged := ((r.diagnostics.find? lint).getD []).map Diagnostic.package
  (sortedSet policy.expectedClean).filter flagged.contains

def uncleanReasons (r : CorpusResult) (policy : PolicyConfig) : List Text :=
  match r.targetLint with
  | none => []
  | some lint => (unclean r policy lint).map fun name =>
      name ++ ": expected clean but reports " ++ lint

def evaluate (r : CorpusResult) (policy : PolicyConfig) : GateDecision where
  reasons := statusReasons r policy ++ uncleanReasons r policy
  unknownExpected := (sortedSet policy.expectedClean).filter fun name => !r.packages.contains name

end Gate
end LintCorpus
