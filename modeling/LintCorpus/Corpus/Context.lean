import LintCorpus.Aggregate
import LintCorpus.Process.Table

/-!
What the workers of a run share: how many there may be, the table of children, and the runs
recorded so far. Work is taken on only between entering and leaving; leaving ends all children.
-/
namespace LintCorpus

inductive ContextFault where
  | noJobs
  | notEntered
deriving DecidableEq, Repr

def ContextFault.message : ContextFault → Text
  | .noJobs => "jobs must be at least 1"
  | .notEntered => "RunContext must be entered before submitting work"

structure RunContext where
  jobs : Int
  table : ProcessTable := {}
  recorded : List PackageRun := []
  isEntered : Bool := false

namespace RunContext

def ofJobs (jobs : Int) : Except ContextFault RunContext :=
  if jobs < 1 then .error .noJobs else .ok { jobs }

def enter (c : RunContext) : RunContext := { c with isEntered := true }

def submit (c : RunContext) (work : RunContext → RunContext) : Except ContextFault RunContext :=
  if c.isEntered then .ok (work c) else .error .notEntered

def record (run : PackageRun) (c : RunContext) : RunContext :=
  { c with recorded := c.recorded ++ [run] }

/-- Leaves: nothing is started any more and all children are ended. -/
def leave (c : RunContext) (grace : Nat) : RunContext :=
  { c with table := (c.table.close.terminateAll grace).1, isEntered := false }

end RunContext
end LintCorpus
