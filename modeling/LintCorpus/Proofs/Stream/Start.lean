import LintCorpus.Proofs.Json.Object
import LintCorpus.Proofs.Stream.Run
import Mathlib.Data.List.Basic

/-!
Where records start. A line that begins with a brace starts a record outside any other, and inside
another one if a quote follows the brace. What the reader keeps of an open record begins with that
brace, so nothing it decodes can be anything but an object.
-/
namespace LintCorpus.StreamReader

variable (limits : StreamLimits) (r : StreamReader) (number : Nat)

def Starts (line : Text) : Prop :=
  line.startsWith "\x7b\"" = true ∨ line.startsWith "\x7b" = true ∧ r.mode ≠ .inRecord

instance (line : Text) : Decidable (Starts r line) := inferInstanceAs (Decidable (_ ∨ _))

theorem Starts.brace {r : StreamReader} {line : Text} (starts : Starts r line) :
    line.startsWith "\x7b" = true := starts.elim startsWith_brace And.left

theorem not_starts {r : StreamReader} {line : Text} (inside : r.mode = .inRecord)
    (continues : line.startsWith "\x7b\"" = false) : ¬Starts r line := by
  simp [Starts, continues, inside]

theorem continues_of_not_starts {r : StreamReader} {line : Text} (goes : ¬Starts r line) :
    line.startsWith "\x7b\"" = false := Bool.eq_false_iff.mpr fun marked => goes (.inl marked)

theorem plain_of_not_starts {r : StreamReader} {line : Text} (goes : ¬Starts r line)
    (outside : r.mode ≠ .inRecord) : line.startsWith "\x7b" = false :=
  Bool.eq_false_iff.mpr fun brace => goes (.inr ⟨brace, outside⟩)

private theorem starts_decode (t : Text) : StreamEvent.starts [decode limits t number] = [] := by
  have decoded := decoded limits t number
  generalize decode limits t number = event at decoded
  cases decoded <;> rfl

private theorem starts_begin (line : Text) :
    StreamEvent.starts (begin limits line number).2 = [number] := by
  have begun := begun limits number line
  generalize begin limits line number = result at begun
  cases begun with
  | completed =>
    have none := starts_decode limits number line
    simp only [StreamEvent.starts, List.filterMap_cons, List.filterMap_nil] at none ⊢
    rw [none]
  | overclosed => rfl
  | opened => rfl

theorem starts_step (line : Text) :
    StreamEvent.starts (step limits r number line).2 = if Starts r line then [number] else [] := by
  have moved := stepped limits r number line
  generalize step limits r number line = result at moved
  cases moved with
  | passed outside plain =>
    rw [if_neg fun starts : Starts r line => by simp [starts.brace] at plain]
    rfl
  | begun outside begins =>
    rw [if_pos (.inr ⟨begins, outside⟩)]
    exact starts_begin limits number line
  | resumed inside begins =>
    rw [if_pos (.inl begins)]
    exact starts_begin limits number line
  | outgrown inside continues =>
    rw [if_neg (not_starts inside continues)]
    rfl
  | continued inside continues =>
    rw [if_neg (not_starts inside continues)]
    rfl
  | overclosed inside continues =>
    rw [if_neg (not_starts inside continues)]
    rfl
  | completed inside continues =>
    rw [if_neg (not_starts inside continues)]
    exact starts_decode limits _ _

theorem starts_cons (line : Text) (rest : List Text) :
    StreamEvent.starts (events limits r number (line :: rest)) =
      (if Starts r line then [number] else []) ++
        StreamEvent.starts (events limits (step limits r number line).1 (number + 1) rest) := by
  rw [events_cons, StreamEvent.starts_append, starts_step]

theorem starts_bounds (lines : List Text) :
    ∀ n ∈ StreamEvent.starts (events limits r number lines), number ≤ n ∧ n < number + lines.length := by
  induction lines generalizing r number with
  | nil => simp [StreamEvent.starts]
  | cons line rest ih =>
    intro n member
    rw [starts_cons, List.mem_append] at member
    rw [List.length_cons]
    rcases member with here | later
    · split at here
      · obtain rfl := List.mem_singleton.mp here
        omega
      · cases here
    · have bounds := ih _ _ n later
      omega

theorem starts_sorted (lines : List Text) :
    (StreamEvent.starts (events limits r number lines)).Pairwise (· < ·) := by
  induction lines generalizing r number with
  | nil => exact .nil
  | cons line rest ih =>
    rw [starts_cons]
    split
    · refine List.Pairwise.cons (fun n later => ?_) (ih _ _)
      have bounds := starts_bounds limits _ _ _ n later
      omega
    · exact ih _ _

/-- A line that begins with a brace starts a record, or another one has started before it. -/
theorem starts_ne_nil_iff (lines : List Text) (outside : r.mode ≠ .inRecord) :
    StreamEvent.starts (events limits r number lines) ≠ [] ↔
      ∃ line ∈ lines, line.startsWith "\x7b" = true := by
  induction lines generalizing number with
  | nil => simp [StreamEvent.starts]
  | cons line rest ih =>
    rw [starts_cons]
    cases begins : line.startsWith "\x7b" with
    | true => simp [Starts, begins, outside]
    | false =>
      have starts : ¬Starts r line := fun starts => by simp [starts.brace] at begins
      rw [if_neg starts, step_chatter limits r number line outside begins, List.nil_append, ih]
      simp [begins]

end LintCorpus.StreamReader
