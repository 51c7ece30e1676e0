import LintCorpus.Console
import LintCorpus.Files.Tree
import LintCorpus.Text.Terminal

/-!
What a command does to its surroundings: it writes files, it writes its answer, and it tells the
person at the terminal how it is getting on. All of that stays even if the command then fails.
-/
namespace LintCorpus.CommandLine

/-- The files, the answer written so far, and what the person at the terminal was told. -/
structure Session where
  files : FileTree
  output : Text := []
  log : Text := []

/-- Why a command stops before its end: with an exit status, or for a fault nobody expects. -/
inductive Stop where
  | exit (status : Nat)
  | abort (fault : FileFault)
deriving DecidableEq

def fatalStatus : Nat := 2

abbrev Step := ExceptT Stop (StateM Session)

namespace Step

def tell (emoji : Bool) (messages : List Message) : Step Unit :=
  modify fun s => { s with log := s.log ++ Message.displayAll messages emoji }

def say (emoji : Bool) (level : Level) (t : Text) : Step Unit := tell emoji [⟨level, t⟩]

/-- Writes a part of the answer, which holds nothing that is meant for a terminal alone. -/
def answer (t : Text) : Step Unit :=
  modify fun s => { s with output := s.output ++ t.withoutSequences }

def files : Step FileTree := do return (← get).files

def setFiles (t : FileTree) : Step Unit := modify fun s => { s with files := t }

/-- The value of a result; a fault that its caller expects is told and ends the command. -/
def require {α ε : Type} (emoji : Bool) (message : ε → Text) (result : Except (Failure ε) α) :
    Step α :=
  match result with
  | .ok a => pure a
  | .error (.aborted fault) => throw (.abort fault)
  | .error (.reported fault) => do
    say emoji .fail (message fault)
    throw (.exit fatalStatus)

def change (action : FileTree → FileTree × Except FileFault Unit) : Step Unit := do
  let (changed, result) := action (← files)
  setFiles changed
  match result with
  | .ok () => return ()
  | .error fault => throw (.abort fault)

end Step
end LintCorpus.CommandLine
