import LintCorpus.Text.Utf8

/-!
A child process, the leader of a group of processes, as those who started it can tell. It writes,
lets time pass and ends, or it is ended by a signal. One that has ended keeps its number until it
is reaped.
-/
namespace LintCorpus

inductive Action where
  | writeOutput (bytes : Bytes)
  | writeErrors (bytes : Bytes)
  | pause (microseconds : Nat)
  | ignoreTerm
  | endOnTerm (output errors : Bytes) (code : Int)
  | hang
deriving DecidableEq

structure Behaviour where
  actions : List Action := []
  code : Int := 0
deriving DecidableEq

inductive Fate where
  | running
  | exited (code : Int)
  | reaped (code : Int)
deriving DecidableEq, Repr

inductive GroupSignal where
  | term
  | kill
deriving DecidableEq, Repr

def GroupSignal.code : GroupSignal → Int
  | .term => -15
  | .kill => -9

/-- What the polite signal does to a child: it dies of it, does not mind it, or writes a last time
and ends by itself. -/
inductive TermResponse where
  | dies
  | ignores
  | ends (output errors : Bytes) (code : Int)
deriving DecidableEq, Repr

/-- A child: its number, what it has still to do, what it wrote, and how far it has come. -/
structure Child where
  pid : Nat
  remaining : List Action
  code : Int
  response : TermResponse := .dies
  stdout : Bytes := []
  stderr : Bytes := []
  fate : Fate := .running
deriving DecidableEq

namespace Child

def start (pid : Nat) (b : Behaviour) : Child where
  pid
  remaining := b.actions
  code := b.code

def hasExited (c : Child) : Bool := c.fate != .running

def returncode (c : Child) : Option Int :=
  match c.fate with
  | .reaped code => some code
  | _ => none

/-- Does actions for at most `limit` microseconds, without end if there is no limit, or until
`isEnough`. -/
def advance (isEnough : Child → Bool) (c : Child) (limit : Option Nat) : List Action → Child
  | [] =>
    if isEnough c then { c with remaining := [] }
    else { c with remaining := [], fate := .exited c.code }
  | action :: rest =>
    if isEnough c then { c with remaining := action :: rest }
    else
      match action with
      | .writeOutput bytes => advance isEnough { c with stdout := c.stdout ++ bytes } limit rest
      | .writeErrors bytes => advance isEnough { c with stderr := c.stderr ++ bytes } limit rest
      | .ignoreTerm => advance isEnough { c with response := .ignores } limit rest
      | .endOnTerm output errors code =>
        advance isEnough { c with response := .ends output errors code } limit rest
      | .hang => { c with remaining := .hang :: rest }
      | .pause time =>
        match limit with
        | none => advance isEnough c none rest
        | some left =>
          if time ≤ left then advance isEnough c (some (left - time)) rest
          else { c with remaining := .pause (time - left) :: rest }

def pass (limit : Option Nat) (c : Child) : Child :=
  if c.hasExited then c else c.advance (fun _ => false) limit c.remaining

def hasLine (c : Child) : Bool := c.stdout.contains 0x0A

/-- Waits for a line of output and takes it; less than a line if the child ends before. -/
def readLine (c : Child) : Child × Bytes :=
  let c := if c.hasExited then c else c.advance hasLine none c.remaining
  let line := c.stdout.takeWhile (· != 0x0A)
  let after := c.stdout.drop line.length
  ({ c with stdout := after.drop 1 }, line ++ after.take 1)

def signal (s : GroupSignal) (c : Child) : Child :=
  if c.hasExited then c
  else
    match s, c.response with
    | .term, .ignores => c
    | .term, .ends output errors code =>
      { c with stdout := c.stdout ++ output, stderr := c.stderr ++ errors, fate := .exited code }
    | _, _ => { c with fate := .exited s.code }

def reap (c : Child) : Child :=
  match c.fate with
  | .exited code => { c with fate := .reaped code }
  | _ => c

end Child
end LintCorpus
