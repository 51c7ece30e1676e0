import LintCorpus.CorpusResult
import LintCorpus.Stored.Schema
import LintCorpus.Stored.Form

/-!
Comparing the findings of two runs. Findings are the same when their keys are, so a finding that
moved to another line counts as one gone and one new.
-/
namespace LintCorpus

structure ResultDiff where
  introduced : List Diagnostic := []
  resolved : List Diagnostic := []
deriving DecidableEq

namespace ResultDiff

/-- By package, then rule, then place. -/
def compare (a b : Diagnostic) : Ordering :=
  (Ord.compare a.package b.package).then <| (Ord.compare a.rule b.rule).then <|
    a.sortKey.compare b.sortKey

def sort (ds : List Diagnostic) : List Diagnostic := ds.mergeSort fun a b => (compare a b).isLE

/-- The findings of `r` whose keys are not among those of `other`. -/
def missingFrom (other r : CorpusResult) : List Diagnostic :=
  let keys := other.allDiagnostics.map Diagnostic.key
  sort (r.allDiagnostics.filter fun d => !keys.contains d.key)

def between (baseline current : CorpusResult) : ResultDiff where
  introduced := missingFrom baseline current
  resolved := missingFrom current baseline

def hasChanges (d : ResultDiff) : Bool := !d.introduced.isEmpty || !d.resolved.isEmpty

def check : Schema.Check ResultDiff :=
  Schema.record "ResultDiff" fun m =>
    ResultDiff.mk <$> Schema.defaulted m "introduced" [] (Schema.sequence Diagnostic.check) <*>
      Schema.defaulted m "resolved" [] (Schema.sequence Diagnostic.check)

def toValue (d : ResultDiff) : Value :=
  .object [("introduced", Diagnostic.listToValue d.introduced),
    ("resolved", Diagnostic.listToValue d.resolved)]

end ResultDiff
end LintCorpus
