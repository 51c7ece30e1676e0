import LintCorpus.Corpus.Context

/-!
The workers of a run. They take the packages in the order of the catalog, no more at a time than
there may be workers. A run is recorded when it ends, and runs end in every order.
-/
namespace LintCorpus

/-- The packages no worker has taken yet, those that workers are at, and what the workers share. -/
structure Workers where
  waiting : List Package
  atWork : List Package := []
  context : RunContext

/-- What happens next: a worker takes a package, or it records the run of one. -/
inductive Shift where
  | take
  | record (position : Nat)
deriving DecidableEq, Repr

namespace Workers

def ofJobs (jobs : Int) (packages : List Package) : Except ContextFault Workers := do
  let context ← RunContext.ofJobs jobs
  let context ← context.enter.submit id
  return { waiting := packages, context }

def take (s : Workers) : Option Workers :=
  match s.waiting with
  | [] => none
  | package :: rest =>
    if s.atWork.length < s.context.jobs then
      some { s with waiting := rest, atWork := s.atWork ++ [package] }
    else none

def record (lint : Package → PackageRun) (s : Workers) (position : Nat) : Option Workers :=
  s.atWork[position]?.map fun package =>
    { s with
      atWork := s.atWork.eraseIdx position
      context := s.context.record (lint package) }

def step (lint : Package → PackageRun) (s : Workers) : Shift → Option Workers
  | .take => s.take
  | .record position => s.record lint position

def run (lint : Package → PackageRun) (s : Workers) (shifts : List Shift) : Option Workers :=
  shifts.foldlM (step lint) s

def isDone (s : Workers) : Bool := s.waiting.isEmpty && s.atWork.isEmpty

/-- Whether workers can record runs in a certain order. -/
def Records (lint : Package → PackageRun) (jobs : Int) (packages : List Package)
    (recorded : List PackageRun) : Prop :=
  ∃ begun shifts done, ofJobs jobs packages = .ok begun ∧ begun.run lint shifts = some done ∧
    done.isDone = true ∧ done.context.recorded = recorded

end Workers
end LintCorpus
