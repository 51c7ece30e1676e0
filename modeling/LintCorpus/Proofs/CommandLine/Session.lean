import LintCorpus.CommandLine.Program
import LintCorpus.Proofs.Failure

/-!
The steps of a command. One that stops ends the command where it stands; what was written and told
before stays.
-/
namespace LintCorpus.CommandLine

def Session.told (s : Session) (emoji : Bool) (messages : List Message) : Session :=
  { s with log := s.log ++ Message.displayAll messages emoji }

/-- How a command ends for a failure: one that it expects is told, one that it does not ends it at
once. -/
def Session.halted (s : Session) (emoji : Bool) : Failure Text → Finish
  | .reported reason => ⟨.exited fatalStatus, s.told emoji [⟨.fail, reason⟩]⟩
  | .aborted fault => ⟨.aborted fault, s⟩

/-- The command does nothing but tell why it cannot do its work. -/
def Session.Refused (s : Session) (emoji : Bool) (f : Finish) : Prop :=
  ∃ reason, f = s.halted emoji (.reported reason)

/-- The command does nothing, and a fault that it does not expect ends it. -/
def Session.Broken (s : Session) (f : Finish) : Prop := ∃ fault, f = ⟨.aborted fault, s⟩

theorem Session.refused_halted (s : Session) (emoji : Bool) (failure : Failure Text) :
    s.Refused emoji (s.halted emoji failure) ↔ failure.IsReported := by
  rcases failure with reason | fault
  · exact iff_of_true ⟨reason, rfl⟩ trivial
  · exact iff_of_false (fun ⟨reason, same⟩ => nomatch congrArg Finish.ending same) id

theorem Session.broken_halted (s : Session) (emoji : Bool) (failure : Failure Text) :
    s.Broken (s.halted emoji failure) ↔ ¬failure.IsReported := by
  rcases failure with reason | fault
  · exact iff_of_false (fun ⟨fault, same⟩ => nomatch congrArg Finish.ending same) (· trivial)
  · exact iff_of_true ⟨fault, rfl⟩ id

theorem Session.ended_iff {α : Type} {s : Session} {emoji : Bool} {f : Finish}
    {result : Except (Failure Text) α} (none : ¬∃ a, result = .ok a)
    (halts : ∀ failure, result = .error failure → f = s.halted emoji failure) :
    (s.Refused emoji f ↔ Settled result) ∧ (s.Broken f ↔ ¬Settled result) := by
  rcases result with failure | a
  · rw [halts failure rfl, settled_error]
    exact ⟨s.refused_halted emoji failure, s.broken_halted emoji failure⟩
  · exact absurd ⟨a, rfl⟩ none

namespace Step

section Run

variable {α β : Type} {x : Step α} {f : α → Step β} {s t : Session}

theorem run_bind_ok {a : α} (taken : x.run.run s = (.ok a, t)) :
    (x >>= f).run.run s = (f a).run.run t := by
  rw [ExceptT.run_bind, StateT.run_bind, taken]
  rfl

theorem run_bind_error {stop : Stop} (stopped : x.run.run s = (.error stop, t)) :
    (x >>= f).run.run s = (.error stop, t) := by
  rw [ExceptT.run_bind, StateT.run_bind, stopped]
  rfl

theorem run_change (action : FileTree → FileTree × Except FileFault Unit) :
    (change action).run.run s =
      ((action s.files).2.mapError Stop.abort, { s with files := (action s.files).1 }) := by
  have held : files.run.run s = (.ok s.files, s) := rfl
  rw [change, run_bind_ok held]
  rcases action s.files with ⟨changed, fault | ⟨⟩⟩ <;> rfl

end Run

section Finish

variable {α ε : Type} {f : α → Step Nat} {s : Session}

theorem finish_bind_ok {x : Step α} {t : Session} {a : α} (taken : x.run.run s = (.ok a, t)) :
    (x >>= f).finish s = (f a).finish t := by
  rw [finish, run_bind_ok taken, finish]

theorem finish_files (f : FileTree → Step Nat) : (files >>= f).finish s = (f s.files).finish s :=
  finish_bind_ok rfl

theorem finish_tell (emoji : Bool) (messages : List Message) (f : Unit → Step Nat) :
    (tell emoji messages >>= f).finish s = (f ()).finish (s.told emoji messages) :=
  finish_bind_ok rfl

theorem finish_require (emoji : Bool) (message : ε → Text) (result : Except (Failure ε) α)
    (f : α → Step Nat) : (require emoji message result >>= f).finish s = match result with
      | .ok a => (f a).finish s
      | .error failure => s.halted emoji (failure.mapReported message) := by
  rcases result with (fault | fault) | a
  · rfl
  · rfl
  · exact finish_bind_ok rfl

end Finish

end Step
end LintCorpus.CommandLine
