import LintCorpus.Proofs.Stream.Start

/-!
What becomes of every record that starts. It is settled once, before the next one starts or at the
end of the lines: by the record it denotes, by an issue with the number of its first line, or by an
excess that stops the reader.
-/
namespace LintCorpus

namespace StreamEvent

/-- Events that settle one record after another, with the lines of the records that are open before
and after them; `denotes` says which record a line may start. -/
inductive Settle (denotes : Nat → Members → Prop) :
    Option Nat → List StreamEvent → Option Nat → Prop where
  | done (line : Option Nat) : Settle denotes line [] line
  | started {line : Nat} {rest : List StreamEvent} {final : Option Nat}
      (later : Settle denotes (some line) rest final) :
      Settle denotes none (.started line :: rest) final
  | decoded {line : Nat} {record : Members} {rest : List StreamEvent} {final : Option Nat}
      (denoted : denotes line record) (later : Settle denotes none rest final) :
      Settle denotes (some line) (.decoded record :: rest) final
  | skipped {line : Nat} {issue : Issue} {rest : List StreamEvent} {final : Option Nat}
      (named : issue.line = line) (later : Settle denotes none rest final) :
      Settle denotes (some line) (.skipped issue :: rest) final
  | stopped {line : Nat} {excess : Json.Excess} {rest : List StreamEvent} {final : Option Nat}
      (later : Settle denotes none rest final) :
      Settle denotes (some line) (.stopped excess :: rest) final

/-- The first line of a record and what the record came to. An issue names that line, and a record
is one that the line may start. -/
structure Settlement (denotes : Nat → Members → Prop) where
  line : Nat
  outcome : Except Issue Members
  named : ∀ issue, outcome = .error issue → issue.line = line
  denoted : ∀ record, outcome = .ok record → denotes line record

def ofOutcome : Except Issue Members → StreamEvent
  | .ok record => .decoded record
  | .error issue => .skipped issue

variable {denotes other : Nat → Members → Prop} {before middle final : Option Nat}
  {met front back : List StreamEvent}

def Settlement.events (s : Settlement denotes) : List StreamEvent :=
  [.started s.line, ofOutcome s.outcome]

namespace Settle

theorem append (first : Settle denotes before front middle)
    (second : Settle denotes middle back final) : Settle denotes before (front ++ back) final := by
  induction first with
  | done => exact second
  | started _ ih => exact .started (ih second)
  | decoded denoted _ ih => exact .decoded denoted (ih second)
  | skipped named _ ih => exact .skipped named (ih second)
  | stopped _ ih => exact .stopped (ih second)

theorem mono (settled : Settle denotes before met final)
    (weaker : ∀ line record, denotes line record → other line record) :
    Settle other before met final := by
  induction settled with
  | done line => exact .done line
  | started _ ih => exact .started ih
  | decoded denoted _ ih => exact .decoded (weaker _ _ denoted) ih
  | skipped named _ ih => exact .skipped named ih
  | stopped _ ih => exact .stopped ih

private theorem pairs (settled : Settle denotes before met final) (closed : final = none)
    (unstopped : stops met = []) :
    (before = none →
      ∃ settlements : List (Settlement denotes), met = settlements.flatMap (·.events)) ∧
      ∀ line, before = some line →
        ∃ (first : Settlement denotes) (settlements : List (Settlement denotes)),
          first.line = line ∧ met = ofOutcome first.outcome :: settlements.flatMap (·.events) := by
  -- A record that is open takes its outcome from the first event, so both cases are told at once.
  induction settled with
  | done line => exact ⟨fun _ => ⟨[], rfl⟩, fun line open_ => by rw [closed] at open_; cases open_⟩
  | started _ ih =>
    refine ⟨fun _ => ?_, fun _ impossible => by cases impossible⟩
    obtain ⟨first, settlements, rfl, rfl⟩ := (ih closed unstopped).2 _ rfl
    exact ⟨first :: settlements, rfl⟩
  | @decoded line record rest final denoted later ih =>
    refine ⟨fun impossible => (by cases impossible), fun _ same => ?_⟩
    obtain ⟨settlements, rfl⟩ := (ih closed unstopped).1 rfl
    cases same
    exact ⟨⟨line, .ok record, by simp, by simpa using denoted⟩, settlements, rfl, rfl⟩
  | @skipped line issue rest final named later ih =>
    refine ⟨fun impossible => (by cases impossible), fun _ same => ?_⟩
    obtain ⟨settlements, rfl⟩ := (ih closed unstopped).1 rfl
    cases same
    exact ⟨⟨line, .error issue, by simpa using named, by simp⟩, settlements, rfl, rfl⟩
  | stopped => cases unstopped

/-- Between moments without an open record every start is paired with one outcome, if nothing stops
the reader. -/
theorem settlements (settled : Settle denotes none met none) (unstopped : stops met = []) :
    ∃ settlements : List (Settlement denotes), met = settlements.flatMap (·.events) :=
  (settled.pairs rfl unstopped).1 rfl

theorem issues_sublist (settled : Settle denotes before met final) :
    ((issues met).map (·.line)).Sublist ((before.toList ++ starts met).map fun n : Nat => (n : Int)) := by
  induction settled with
  | done => exact List.nil_sublist _
  | started _ ih => exact ih
  | decoded _ _ ih => exact ih.cons _
  | @skipped line _ _ _ named _ ih => simpa [issues, starts, named] using ih.cons_cons (line : Int)
  | stopped _ ih => exact ih.cons _

/-- Records, issues and excesses are as many as the starts, but for what is open before or after. -/
theorem count (settled : Settle denotes before met final) :
    (records met).length + (issues met).length + (stops met).length + final.toList.length =
      before.toList.length + (starts met).length := by
  induction settled with
  | done => simp [records, issues, stops, starts]
  | started _ ih => simpa [records, issues, stops, starts, Nat.add_comm] using ih
  | decoded _ _ ih =>
    simp [records, issues, stops, starts] at ih ⊢
    omega
  | skipped _ _ ih =>
    simp [records, issues, stops, starts] at ih ⊢
    omega
  | stopped _ ih =>
    simp [records, issues, stops, starts] at ih ⊢
    omega

end Settle
end StreamEvent

namespace StreamReader

def openLine (r : StreamReader) : Option Nat := if r.mode = .inRecord then some r.startLine else none

theorem openLine_inside {r : StreamReader} (inside : r.mode = .inRecord) :
    r.openLine = some r.startLine := if_pos inside

theorem openLine_outside {r : StreamReader} (outside : r.mode ≠ .inRecord) : r.openLine = none :=
  if_neg outside

variable (limits : StreamLimits) {denotes : Nat → Members → Prop} {r : StreamReader} {number : Nat}

private theorem decode_settle {t : Text}
    (denoted : ∀ record, Json.load limits.toLimits t = .ok (.object record) → denotes number record) :
    StreamEvent.Settle denotes (some number) [decode limits t number] none := by
  have decoded := decoded limits t number
  generalize decode limits t number = event at decoded
  cases decoded with
  | record loaded => exact .decoded (denoted _ loaded) (.done _)
  | other => exact .skipped rfl (.done _)
  | malformed => exact .skipped rfl (.done _)
  | exceeding => exact .stopped (.done _)

private theorem begin_settle {line : Text}
    (denoted : ∀ record, Json.load limits.toLimits line = .ok (.object record) →
      denotes number record) :
    StreamEvent.Settle denotes none (begin limits line number).2
      (begin limits line number).1.openLine := by
  have begun := begun limits number line
  generalize begin limits line number = result at begun
  cases begun with
  | completed => exact .started (decode_settle limits denoted)
  | overclosed => exact .started (.skipped rfl (.done _))
  | opened => exact .started (.done _)

/-- One line settles what is open before it, but for what it leaves open. -/
theorem step_settle {line : Text}
    (starting : ∀ record, Json.load limits.toLimits line = .ok (.object record) →
      denotes number record)
    (continuing : r.mode = .inRecord → ∀ record,
      Json.load limits.toLimits (r.grown line).buffered = .ok (.object record) →
        denotes r.startLine record) :
    StreamEvent.Settle denotes r.openLine (step limits r number line).2
      (step limits r number line).1.openLine := by
  have moved := stepped limits r number line
  generalize step limits r number line = result at moved
  cases moved with
  | passed => exact .done _
  | begun outside =>
    rw [openLine_outside outside]
    exact begin_settle limits starting
  | resumed inside =>
    rw [openLine_inside inside]
    exact .skipped rfl (begin_settle limits starting)
  | outgrown inside =>
    rw [openLine_inside inside]
    exact .skipped rfl (.done _)
  | continued inside =>
    have still : (r.grown line).openLine = some r.startLine := openLine_inside inside
    rw [openLine_inside inside, still]
    exact .done _
  | overclosed inside =>
    rw [openLine_inside inside]
    exact .skipped rfl (.done _)
  | completed inside =>
    rw [openLine_inside inside]
    exact decode_settle limits (continuing inside)

/-- Any record may be started anywhere. -/
def Anything (_ : Nat) (_ : Members) : Prop := True

variable (r number)

theorem run_settle (lines : List Text) :
    StreamEvent.Settle Anything r.openLine (events limits r number lines)
      (after limits r number lines).openLine := by
  induction lines generalizing r number with
  | nil => exact .done _
  | cons line rest ih =>
    rw [events_cons, after_cons]
    exact (step_settle limits (fun _ _ => trivial) fun _ _ _ => trivial).append (ih _ _)

theorem finish_settle : StreamEvent.Settle denotes r.openLine r.finish.2 none := by
  unfold finish openLine
  split
  · exact .skipped rfl (.done _)
  · exact .done _

theorem toEnd_settle (lines : List Text) :
    StreamEvent.Settle Anything r.openLine (toEnd limits r number lines) none :=
  (run_settle limits r number lines).append (finish_settle _)

theorem count_toEnd (outside : r.mode ≠ .inRecord) (lines : List Text) :
    (StreamEvent.records (toEnd limits r number lines)).length +
        (StreamEvent.issues (toEnd limits r number lines)).length +
        (StreamEvent.stops (toEnd limits r number lines)).length =
      (StreamEvent.starts (toEnd limits r number lines)).length := by
  have count := (toEnd_settle limits r number lines).count
  rw [openLine_outside outside] at count
  simpa using count

private theorem starts_finish : StreamEvent.starts r.finish.2 = [] := by
  unfold finish
  split <;> rfl

theorem starts_toEnd (lines : List Text) :
    StreamEvent.starts (toEnd limits r number lines) =
      StreamEvent.starts (events limits r number lines) := by
  rw [toEnd, StreamEvent.starts_append, starts_finish, List.append_nil]

/-- The issues of a stream come in the order of their lines, which are lines that start a record. -/
theorem issues_toEnd (lines : List Text) :
    ((StreamEvent.issues (toEnd limits {} number lines)).map Issue.line).Sublist
        ((StreamEvent.starts (events limits {} number lines)).map fun n : Nat => (n : Int)) ∧
      ((StreamEvent.issues (toEnd limits {} number lines)).map Issue.line).Pairwise (· < ·) := by
  have located := (toEnd_settle limits {} number lines).issues_sublist
  rw [starts_toEnd] at located
  refine ⟨located, List.Pairwise.sublist located (List.pairwise_map.mpr ?_)⟩
  exact (starts_sorted limits {} number lines).imp Int.ofNat_lt.mpr

end StreamReader
end LintCorpus
