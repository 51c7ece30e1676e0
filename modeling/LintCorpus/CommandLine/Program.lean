import LintCorpus.CommandLine.Compare
import LintCorpus.CommandLine.Lint

/-!
The program: the first argument names a command, the others are for it.
-/
namespace LintCorpus.CommandLine

inductive Ending where
  | exited (status : Nat)
  | aborted (fault : FileFault)
  | misused (fault : UsageFault)
deriving DecidableEq

structure Finish where
  ending : Ending
  session : Session

def Step.finish (step : Step Nat) (session : Session) : Finish :=
  match (step.run).run session with
  | (.ok status, s) => ⟨.exited status, s⟩
  | (.error (.exit status), s) => ⟨.exited status, s⟩
  | (.error (.abort fault), s) => ⟨.aborted fault, s⟩

def begin (parsed : Parsing Arguments) (step : Arguments → Step Nat) (session : Session) : Finish :=
  match parsed with
  | .ok a => if a.asksForHelp then ⟨.exited 0, session⟩ else (step a).finish session
  | .error (.reported fault) => ⟨.misused fault, session⟩
  | .error (.aborted fault) => ⟨.aborted fault, session⟩

def dispatch (s : Surroundings) (name : Text) (arguments : List Text) (session : Session) :
    Finish :=
  if name = "run" then
    begin (Arguments.parse lintForms lintArguments arguments)
      (fun a => do return (← lint s (lintOptions a)).exitCode) session
  else if name = "diff" then
    begin (Arguments.parse compareForms compareArguments arguments) compare session
  else ⟨.misused (.noSuchCommand name), session⟩

/-- The arguments from the command's name on, and whether help is asked for before it. No other
option may stand there. -/
def fromCommand : List Text → Except UsageFault (Bool × List Text)
  | [] => .ok (false, [])
  | argument :: rest =>
    if argument = "--" then .ok (false, rest)
    else if isOption argument then do
      let _ ← takeOptions [helpForm] argument rest
      let (_, after) ← fromCommand rest
      return (true, after)
    else .ok (false, argument :: rest)

def run (s : Surroundings) (arguments : List Text) (session : Session) : Finish :=
  match fromCommand arguments with
  | .error fault => ⟨.misused fault, session⟩
  | .ok (true, _) => ⟨.exited 0, session⟩
  | .ok (false, []) => ⟨.misused .missingCommand, session⟩
  | .ok (false, name :: rest) => dispatch s name rest session

end LintCorpus.CommandLine
