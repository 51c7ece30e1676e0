import LintCorpus.Corpus.Run

/-!
A progress bar that follows a run. It is shown only when that is wanted and someone can see it; the
runs that failed are counted as long as it is shown.
-/
namespace LintCorpus

inductive BarCall where
  | create (columns : Nat)
  | addTask (title : Text) (total : Nat)
  | start
  | advance (label : Text)
  | stop
deriving DecidableEq

/-- Whether a bar is wanted, whether someone can see it, whether it is shown, and how many runs
failed. -/
structure ProgressBar where
  isWanted : Bool
  isVisible : Bool
  isShown : Bool := false
  failures : Nat := 0

namespace ProgressBar

def columns : Nat := 6

def title : Text := "Linting"

/-- Whether the bar follows the start and the end of runs; it never follows their beginnings. -/
def follows (b : ProgressBar) : RunEvent → Bool
  | .started _ | .finished _ => b.isWanted
  | .entered _ => false

def start (b : ProgressBar) (total : Nat) : ProgressBar × List BarCall :=
  if b.isVisible then
    ({ b with isShown := true }, [.create columns, .addTask title total, .start])
  else (b, [])

def label (package : Text) (status : Status) : Text :=
  if status = .success then package else package ++ " (" ++ status.name ++ ")"

def finish (b : ProgressBar) (package : Text) (status : Status) : ProgressBar × List BarCall :=
  if b.isShown then
    ({ b with failures := if status.brokeBuild then b.failures + 1 else b.failures },
      [.advance (label package status)])
  else (b, [])

def notice (b : ProgressBar) (event : RunEvent) : ProgressBar × List BarCall :=
  if !b.follows event then (b, [])
  else
    match event with
    | .started packages => b.start packages.length
    | .finished run => b.finish run.name run.invocation.status
    | .entered _ => (b, [])

def stop (b : ProgressBar) : ProgressBar × List BarCall :=
  if b.isShown then ({ b with isShown := false }, [.stop]) else (b, [])

end ProgressBar
end LintCorpus
