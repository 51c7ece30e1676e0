import LintCorpus.Launch
import LintCorpus.Process.Child

/-!
A table of the children that are still to be looked after, so that every way out of a run can end
them. It is keyed by the children's numbers. Once it is closed nothing is started any more.
-/
namespace LintCorpus

inductive SpawnFault where
  | closed
  | start (fault : StartFault)
deriving DecidableEq

def SpawnFault.message : SpawnFault → Text
  | .closed => "run is shutting down; refusing to start new processes"
  | .start fault => fault.message

/-- One thing to do for a child, which nothing else comes in between of. -/
inductive Task where
  | unlessReaped (tasks : List Task)
  | signal (s : GroupSignal)
  | await (limit : Option Nat) (tooLate : List Task)
  | reap
  | unregister

namespace Task

/-- How to end the group of a child: the polite signal, some time to follow it, the other signal.
A child that was reaped has no group any more. -/
def termination (grace : Nat) : List Task :=
  [.unlessReaped [.signal .term, .await (some grace) [], .signal .kill], .reap]

def defaultGrace : Nat := 5000000

/-- How to look after a child that has just been started: wait for it, end its group when the time
is up, and what is left of the group in any case. -/
def supervision (limit : Option Nat) : List Task :=
  [.await limit (termination defaultGrace), .unlessReaped [.signal .kill], .reap, .unregister]

end Task

/-- All children, in the order in which they were started; the numbers of those tracked, each with
the position of its child; and whether the table is closed. -/
structure ProcessTable where
  children : List Child := []
  tracked : List (Nat × Nat) := []
  isClosed : Bool := false

namespace ProcessTable

def size (t : ProcessTable) : Nat := t.tracked.length

def child? (t : ProcessTable) (position : Nat) : Option Child := t.children[position]?

def change (t : ProcessTable) (position : Nat) (f : Child → Child) : ProcessTable :=
  { t with children := t.children.modify position f }

/-- Entries with a new one for a number; it takes the place of an earlier one. -/
def trackIn (pid position : Nat) : List (Nat × Nat) → List (Nat × Nat)
  | [] => [(pid, position)]
  | entry :: rest =>
    if entry.1 = pid then (pid, position) :: rest else entry :: trackIn pid position rest

def add (t : ProcessTable) (pid : Nat) (b : Behaviour) : ProcessTable :=
  { t with
    children := t.children ++ [Child.start pid b]
    tracked := trackIn pid t.children.length t.tracked }

def lastPid (t : ProcessTable) : Nat := (t.children.getLast?.map Child.pid).getD 0

/-- The first number after another that no child holds; one that has been reaped holds none. -/
def pidAfter (t : ProcessTable) (last : Nat) : Nat :=
  let isHeld (pid : Nat) := t.children.any fun c => c.pid == pid && c.returncode.isNone
  ((List.range' (last + 1) (t.children.length + 1)).find? fun pid => !isHeld pid).getD 0

/-- Forgets whatever is tracked under the number of a child. -/
def unregister (t : ProcessTable) (position : Nat) : ProcessTable :=
  match t.child? position with
  | some c => { t with tracked := t.tracked.filter fun entry => entry.1 != c.pid }
  | none => t

def close (t : ProcessTable) : ProcessTable := { t with isClosed := true }

/-- The positions of the tracked children, which are tracked no more. -/
def drain (t : ProcessTable) : ProcessTable × List Nat :=
  ({ t with tracked := [] }, t.tracked.map Prod.snd)

def signal (t : ProcessTable) (position : Nat) (s : GroupSignal) : ProcessTable :=
  t.change position (Child.signal s)

/-- Waits for a child to end without reaping it. -/
def await (t : ProcessTable) (position : Nat) (limit : Option Nat) : ProcessTable × Bool :=
  let waited := t.change position (Child.pass limit)
  (waited, (waited.child? position).any Child.hasExited)

def wait (t : ProcessTable) (position : Nat) : ProcessTable :=
  t.change position fun c => (c.pass none).reap

def isReaped (t : ProcessTable) (position : Nat) : Bool :=
  (t.child? position).any fun c => c.returncode.isSome

mutual

def perform (position : Nat) (t : ProcessTable) : Task → ProcessTable
  | .unlessReaped tasks => if t.isReaped position then t else performAll position t tasks
  | .signal s => t.signal position s
  | .await limit tooLate =>
    let (waited, hasEnded) := t.await position limit
    if hasEnded then waited else performAll position waited tooLate
  | .reap => t.wait position
  | .unregister => t.unregister position

def performAll (position : Nat) (t : ProcessTable) : List Task → ProcessTable
  | [] => t
  | task :: rest => performAll position (perform position t task) rest

end

def terminate (t : ProcessTable) (position : Nat) (grace : Nat) : ProcessTable :=
  t.performAll position (Task.termination grace)

def terminateAll (t : ProcessTable) (grace : Nat) : ProcessTable × Nat :=
  let (drained, positions) := t.drain
  (positions.foldl (fun ended position => ended.terminate position grace) drained,
    positions.length)

/-- What requests amount to: where names of programs lead, and what programs do. Some can set the
number after which the next child gets its own. -/
structure Programs where
  find : Text → Option Text
  behave : LaunchRequest → Except StartFault Behaviour
  lastPid : ProcessTable → Nat := ProcessTable.lastPid

def spawnResolved (t : ProcessTable) (programs : Programs) (r : LaunchRequest) :
    Except SpawnFault (ProcessTable × Nat) := do
  if t.isClosed then .error .closed
  else
    r.check.mapError SpawnFault.start
    let b ← (programs.behave r).mapError SpawnFault.start
    r.checkRoom.mapError SpawnFault.start
    let started := t.add (t.pidAfter (programs.lastPid t)) b
    return ((started.await t.children.length (some 0)).1, t.children.length)

def spawn (t : ProcessTable) (programs : Programs) (r : LaunchRequest) :
    Except SpawnFault (ProcessTable × Nat) := do
  let command ← (LaunchRequest.resolve programs.find r.command).mapError SpawnFault.start
  t.spawnResolved programs { r with command }

def microseconds (seconds : Binary64) : Nat :=
  match seconds with
  | .finite false m => m.units * 1000000 / Nat.pow 2 1074
  | _ => 0

/-- How long a child may take, without end for an infinite time. -/
def limitOf (timeout : Option Binary64) : Option Nat :=
  match timeout with
  | none | some (.infinity false) => none
  | some seconds => some (microseconds seconds)

def capture (t : ProcessTable) (position : Nat) (command : List Text) (inTime : Bool) : Capture :=
  match t.child? position with
  | none => { command, returncode := none }
  | some c =>
    { command
      returncode := if inTime then c.returncode else none
      stdout := c.stdout
      stderr := c.stderr
      timedOut := !inTime }

def runIsolated (t : ProcessTable) (programs : Programs) (r : LaunchRequest) :
    Except SpawnFault (ProcessTable × Capture) := do
  let command ← (LaunchRequest.resolve programs.find r.command).mapError SpawnFault.start
  let (started, position) ← t.spawnResolved programs { r with command }
  let limit := limitOf r.timeout
  let inTime := (started.await position limit).2
  let ended := started.performAll position (Task.supervision limit)
  return (ended, ended.capture position command inTime)

end ProcessTable

/-- Runs each request in a table of its own. -/
def ProcessTable.Programs.launcher (programs : Programs) : Launcher := fun r =>
  match ({} : ProcessTable).runIsolated programs r with
  | .ok (_, captured) => .ok captured
  | .error (.start fault) => .error fault
  | .error .closed => .error .noCommand

end LintCorpus
