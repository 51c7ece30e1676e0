import LintCorpus.Process.Table

/-!
Threads that share a table of children. Each thread has things to do, and does one of them at a
time; between any two of them other threads act and children end, in every order. The numbers of
children are the system's choice: it may use one again as soon as nobody holds it.
-/
namespace LintCorpus

inductive Duty where
  | spawn (limit : Option Nat)
  | close
  | drain
  | attend (position : Nat) (task : Task)

namespace Duty

def work (limits : List (Option Nat)) : List Duty := limits.map Duty.spawn

def shutdown : List Duty := [.close, .drain]

def attending (position : Nat) (tasks : List Task) : List Duty := tasks.map (Duty.attend position)

end Duty

/-- A signal that was sent to the group of a child, and whether the child had been reaped. -/
structure SentSignal where
  position : Nat
  signal : GroupSignal
  afterReap : Bool
deriving DecidableEq, Repr

/-- A table, what the threads that share it are still to do, and the signals they have sent. -/
structure Threads where
  table : ProcessTable := {}
  duties : List (List Duty)
  sent : List SentSignal := []

/-- What happens next: a thread acts, it stops waiting because the time is up, it starts a child
that is given some number, or a child ends. -/
inductive Happening where
  | act (thread : Nat)
  | giveUp (thread : Nat)
  | start (thread : Nat) (pid : Nat)
  | exit (position : Nat) (code : Int)
deriving DecidableEq, Repr

namespace Threads

def ofWorkers (workers : List (List (Option Nat))) : Threads where
  duties := Duty.shutdown :: workers.map Duty.work

def hasExited (s : Threads) (position : Nat) : Bool :=
  (s.table.child? position).any Child.hasExited

def holds (s : Threads) (pid : Nat) : Bool :=
  s.table.children.any fun c => c.pid == pid && c.returncode.isNone

def tracks (s : Threads) (position : Nat) : Bool :=
  s.table.tracked.any fun entry => entry.2 == position

def hasSignalled (s : Threads) (position : Nat) : Bool :=
  s.sent.any fun sent => sent.position == position

def turnTo (s : Threads) (thread : Nat) (duties : List Duty) : Threads :=
  { s with duties := s.duties.set thread duties }

/-- Attends to a child, unless its end has to be waited for. -/
def attend (s : Threads) (thread position : Nat) (rest : List Duty) : Task → Option Threads
  | .unlessReaped tasks =>
    if s.table.isReaped position then s.turnTo thread rest
    else s.turnTo thread (Duty.attending position tasks ++ rest)
  | .signal signal =>
    let sent : SentSignal := ⟨position, signal, s.table.isReaped position⟩
    some { s.turnTo thread rest with sent := s.sent ++ [sent] }
  | .await _ _ => if s.hasExited position then s.turnTo thread rest else none
  | .reap =>
    if s.hasExited position then
      some { s.turnTo thread rest with table := s.table.change position Child.reap }
    else none
  | .unregister => some { s.turnTo thread rest with table := s.table.unregister position }

/-- A thread acts. Only a closed table lets it pass over a start, which needs a number otherwise. -/
def act (s : Threads) (thread : Nat) : Option Threads :=
  match s.duties[thread]? with
  | some (.spawn _ :: rest) => if s.table.isClosed then s.turnTo thread rest else none
  | some (.close :: rest) => some { s.turnTo thread rest with table := s.table.close }
  | some (.drain :: rest) =>
    let (drained, positions) := s.table.drain
    let endings := positions.flatMap fun position =>
      Duty.attending position (Task.termination Task.defaultGrace)
    some { s.turnTo thread (endings ++ rest) with table := drained }
  | some (.attend position task :: rest) => s.attend thread position rest task
  | _ => none

def giveUp (s : Threads) (thread : Nat) : Option Threads :=
  match s.duties[thread]? with
  | some (.attend position (.await (some _) tooLate) :: rest) =>
    if s.hasExited position then none
    else s.turnTo thread (Duty.attending position tooLate ++ rest)
  | _ => none

def start (s : Threads) (thread pid : Nat) : Option Threads :=
  match s.duties[thread]? with
  | some (.spawn limit :: rest) =>
    if s.table.isClosed || s.holds pid then none
    else
      let care := Duty.attending s.table.children.length (Task.supervision limit)
      some { s.turnTo thread (care ++ rest) with table := s.table.add pid {} }
  | _ => none

def exit (s : Threads) (position : Nat) (code : Int) : Option Threads :=
  if s.table.children.length ≤ position || s.hasExited position then none
  else some { s with table := s.table.change position fun c => { c with fate := .exited code } }

def step (s : Threads) : Happening → Option Threads
  | .act thread => s.act thread
  | .giveUp thread => s.giveUp thread
  | .start thread pid => s.start thread pid
  | .exit position code => s.exit position code

def run (s : Threads) (happenings : List Happening) : Option Threads := happenings.foldlM step s

def Reaches (s later : Threads) : Prop := ∃ happenings, s.run happenings = some later

end Threads
end LintCorpus
