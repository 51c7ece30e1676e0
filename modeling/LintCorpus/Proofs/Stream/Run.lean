import LintCorpus.Proofs.Json.Limits
import LintCorpus.Proofs.Text.Lines
import LintCorpus.Stream.Reader

/-!
Runs of the stream reader over lines. Lines make the reader step by step, and what they bring about
in two parts is what each part does. A run goes on up to the line that stops the reader, if there is
one, so it is told by the reader and the events of the lines that it reaches.
-/
namespace LintCorpus

namespace StreamEvent

@[simp] theorem records_append (front back : List StreamEvent) :
    records (front ++ back) = records front ++ records back := List.filterMap_append

@[simp] theorem issues_append (front back : List StreamEvent) :
    issues (front ++ back) = issues front ++ issues back := List.filterMap_append

@[simp] theorem starts_append (front back : List StreamEvent) :
    starts (front ++ back) = starts front ++ starts back := List.filterMap_append

@[simp] theorem stops_append (front back : List StreamEvent) :
    stops (front ++ back) = stops front ++ stops back := List.filterMap_append

end StreamEvent

namespace StreamReader

/-- The reader after lines numbered from `number` on, if it goes on behind each of them. -/
def after (limits : StreamLimits) (r : StreamReader) (number : Nat) : List Text → StreamReader
  | [] => r
  | line :: rest => after limits (step limits r number line).1 (number + 1) rest

/-- What lines numbered from `number` on bring about, if the reader goes on behind each of them. -/
def events (limits : StreamLimits) (r : StreamReader) (number : Nat) : List Text → List StreamEvent
  | [] => []
  | line :: rest =>
    (step limits r number line).2 ++ events limits (step limits r number line).1 (number + 1) rest

/-- The lines up to the one that stops the reader, or all of them. -/
def reached (limits : StreamLimits) (r : StreamReader) (number : Nat) : List Text → List Text
  | [] => []
  | line :: rest =>
    if StreamEvent.stops (step limits r number line).2 = [] then
      line :: reached limits (step limits r number line).1 (number + 1) rest
    else [line]

variable (limits : StreamLimits) (r : StreamReader) (number : Nat)

@[simp] theorem after_nil : after limits r number [] = r := rfl

@[simp] theorem events_nil : events limits r number [] = [] := rfl

theorem after_cons (line : Text) (rest : List Text) :
    after limits r number (line :: rest) =
      after limits (step limits r number line).1 (number + 1) rest := rfl

theorem events_cons (line : Text) (rest : List Text) :
    events limits r number (line :: rest) =
      (step limits r number line).2 ++
        events limits (step limits r number line).1 (number + 1) rest := rfl

theorem after_append (front back : List Text) :
    after limits r number (front ++ back) =
      after limits (after limits r number front) (number + front.length) back := by
  induction front generalizing r number with
  | nil => rfl
  | cons line rest ih =>
    rw [List.cons_append, after_cons, ih, after_cons, List.length_cons, Nat.add_comm rest.length,
      Nat.add_assoc]

theorem after_concat (front : List Text) (line : Text) :
    after limits r number (front ++ [line]) =
      (step limits (after limits r number front) (number + front.length) line).1 := by
  rw [after_append, after_cons, after_nil]

theorem events_append (front back : List Text) :
    events limits r number (front ++ back) =
      events limits r number front ++
        events limits (after limits r number front) (number + front.length) back := by
  induction front generalizing r number with
  | nil => rfl
  | cons line rest ih =>
    rw [List.cons_append, events_cons, ih, events_cons, after_cons, List.append_assoc,
      List.length_cons, Nat.add_comm rest.length, Nat.add_assoc]

/-- What lines numbered from `number` on bring about if the stream ends with them. -/
def toEnd (lines : List Text) : List StreamEvent :=
  events limits r number lines ++ (after limits r number lines).finish.2

theorem toEnd_append (front back : List Text) :
    toEnd limits r number (front ++ back) =
      events limits r number front ++
        toEnd limits (after limits r number front) (number + front.length) back := by
  rw [toEnd, toEnd, events_append, after_append, List.append_assoc]

theorem toEnd_cons (line : Text) (rest : List Text) :
    toEnd limits r number (line :: rest) =
      (step limits r number line).2 ++
        toEnd limits (step limits r number line).1 (number + 1) rest := by
  rw [toEnd, toEnd, events_cons, after_cons, List.append_assoc]

private theorem run_reached (lines : List Text) (before : List StreamEvent) :
    run limits r number lines before =
      (after limits r number (reached limits r number lines),
        before.reverse ++ events limits r number (reached limits r number lines)) := by
  induction lines generalizing r number before with
  | nil => simp [run, reached]
  | cons line rest ih =>
    rw [run, reached]
    by_cases goes : StreamEvent.stops (step limits r number line).2 = []
    · simp [goes, ih, after_cons, events_cons]
    · simp [goes, after_cons, events_cons]

/-- A stream is read line by line up to where the reader stops, and its end is told if that is
reached. -/
theorem read_eq (stream : Bytes) :
    read limits r stream =
      let lines := reached limits r 1 (Utf8.decode stream).lines
      ((after limits r 1 lines).finish.1, toEnd limits r 1 lines) := by
  rw [read, run_reached]
  rfl

theorem stops_finish (r : StreamReader) : StreamEvent.stops r.finish.2 = [] := by
  unfold finish
  split <;> rfl

theorem stops_toEnd (lines : List Text) :
    StreamEvent.stops (toEnd limits r number lines) =
      StreamEvent.stops (events limits r number lines) := by
  rw [toEnd, StreamEvent.stops_append, stops_finish, List.append_nil]

/-- Lines are reached up to their end exactly if none of them but the last may stop the reader. -/
theorem reached_append {front : List Text} (back : List Text)
    (unstopped : StreamEvent.stops (events limits r number front) = []) :
    reached limits r number (front ++ back) =
      front ++ reached limits (after limits r number front) (number + front.length) back := by
  induction front generalizing r number with
  | nil => rfl
  | cons line rest ih =>
    rw [events_cons, StreamEvent.stops_append, List.append_eq_nil_iff] at unstopped
    rw [List.cons_append, reached, if_pos unstopped.1, ih _ _ unstopped.2, after_cons,
      List.length_cons, Nat.add_comm rest.length, Nat.add_assoc]
    rfl

theorem stops_reached_iff (lines : List Text) :
    StreamEvent.stops (events limits r number (reached limits r number lines)) = [] ↔
      StreamEvent.stops (events limits r number lines) = [] := by
  induction lines generalizing r number with
  | nil => exact Iff.rfl
  | cons line rest ih =>
    rw [reached]
    split
    · next goes =>
      rw [events_cons, events_cons, StreamEvent.stops_append, StreamEvent.stops_append, goes]
      exact ih _ _
    · next stopped =>
      rw [events_cons, events_cons, StreamEvent.stops_append, StreamEvent.stops_append,
        List.append_eq_nil_iff, List.append_eq_nil_iff]
      exact iff_of_false (fun both => stopped both.1) fun both => stopped both.1

theorem reached_of_unstopped {lines : List Text}
    (unstopped : StreamEvent.stops (events limits r number lines) = []) :
    reached limits r number lines = lines := by
  have whole := reached_append limits r number [] unstopped
  rwa [List.append_nil, reached, List.append_nil] at whole

/-- Nothing stops the reading of a stream exactly if nothing would if it went on regardless. -/
theorem stops_read_iff (stream : Bytes) :
    StreamEvent.stops (read limits r stream).2 = [] ↔
      StreamEvent.stops (events limits r 1 (Utf8.decode stream).lines) = [] := by
  rw [read_eq]
  dsimp only
  rw [stops_toEnd, stops_reached_iff]

theorem read_of_unstopped {stream : Bytes}
    (unstopped : StreamEvent.stops (events limits r 1 (Utf8.decode stream).lines) = []) :
    read limits r stream =
      ((after limits r 1 (Utf8.decode stream).lines).finish.1,
        toEnd limits r 1 (Utf8.decode stream).lines) := by
  rw [read_eq, reached_of_unstopped limits r 1 unstopped]

theorem read_closed {stream : Bytes} {t : Text} (decoded : Utf8.decode stream = t)
    (unstopped : StreamEvent.stops (events limits r 1 t.lines) = [])
    (outside : (after limits r 1 t.lines).mode ≠ .inRecord) :
    read limits r stream = (after limits r 1 t.lines, events limits r 1 t.lines) := by
  have closed : (after limits r 1 t.lines).finish = (after limits r 1 t.lines, []) := by
    rw [finish, if_neg outside]
  rw [read_of_unstopped limits r (decoded ▸ unstopped), decoded, toEnd, closed, List.append_nil]

theorem step_chatter (line : Text) (outside : r.mode ≠ .inRecord)
    (plain : line.startsWith "\x7b" = false) : step limits r number line = (r, []) := by
  rw [step, if_neg outside, if_neg (by simp [plain])]

theorem step_begin (line : Text) (outside : r.mode ≠ .inRecord)
    (begins : line.startsWith "\x7b" = true) :
    step limits r number line = begin limits line number := by
  rw [step, if_neg outside, if_pos begins]

/-- What a text can come to: a record, an issue, or the end of the reading. -/
inductive Decoded (t : Text) (line : Nat) : StreamEvent → Prop where
  | record {members : Members} (loaded : Json.load limits.toLimits t = .ok (.object members)) :
      Decoded t line (.decoded members)
  | other {v : Value} (loaded : Json.load limits.toLimits t = .ok v)
      (unlike : ∀ members, v ≠ .object members) :
      Decoded t line (issue line "record is not a JSON object" t)
  | malformed {e : Json.SyntaxError}
      (refused : Json.load limits.toLimits t = .error (.malformed e)) :
      Decoded t line (issue line ("invalid JSON: " ++ e.cause.message) t)
  | exceeding {excess : Json.Excess}
      (beyond : Json.load limits.toLimits t = .error (.exceeding excess)) :
      Decoded t line (.stopped excess)

theorem decoded (t : Text) (line : Nat) : Decoded limits t line (decode limits t line) := by
  unfold decode
  split
  · next beyond => exact .exceeding beyond
  · next refused => exact .malformed refused
  · next loaded => exact .record loaded
  · next unlike loaded => exact .other loaded unlike

theorem begin_open {line : Text} (opens : 0 < (Scanner.feed {} line).depth) :
    begin limits line number =
      (⟨.inRecord, [line], line.length, number, Scanner.feed {} line⟩, [.started number]) := by
  unfold begin
  dsimp only
  rw [if_neg (by omega), if_neg (by omega)]

/-- What the first line of a record can do: complete it, close it once too often, or leave it
open. -/
inductive Begun (line : Text) : StreamReader × List StreamEvent → Prop where
  | completed (closed : (Scanner.feed {} line).depth = 0) :
      Begun line ({ mode := .seeking }, [.started number, decode limits line number])
  | overclosed (excess : (Scanner.feed {} line).depth < 0) :
      Begun line ({ mode := .recovering },
        [.started number, issue number "unbalanced closing brace" line])
  | opened (opens : 0 < (Scanner.feed {} line).depth) :
      Begun line (⟨.inRecord, [line], line.length, number, Scanner.feed {} line⟩, [.started number])

theorem begun (line : Text) : Begun limits number line (begin limits line number) := by
  by_cases opens : 0 < (Scanner.feed {} line).depth
  · rw [begin_open limits number opens]
    exact .opened opens
  · unfold begin
    dsimp only
    split
    · next closed => exact .completed closed
    · next unbalanced =>
      have excess : (Scanner.feed {} line).depth < 0 := by omega
      rw [if_pos excess]
      exact .overclosed excess

theorem step_resume (line : Text) (inside : r.mode = .inRecord)
    (begins : line.startsWith "\x7b\"" = true) :
    step limits r number line =
      ((begin limits line number).1,
        issue r.startLine "truncated record" r.buffered :: (begin limits line number).2) := by
  rw [step, if_pos inside, extend, if_pos begins]

def grown (line : Text) : StreamReader :=
  { r with buffer := line :: r.buffer, size := r.size + line.length + 1, scanner := r.scanner.feed line }

theorem buffered_grown (line : Text) (present : r.buffer ≠ []) :
    (r.grown line).buffered = r.buffered ++ 0x0A :: line := by
  rw [buffered, grown, List.reverse_cons, Text.join_append _ _ _ (by simpa using present) (by simp),
    Text.join_singleton]
  simp [buffered]

/-- A line that continues the open record: the record is too large, or goes on, or closes more than
it opened, or is complete. -/
theorem step_continue (line : Text) (inside : r.mode = .inRecord)
    (continues : line.startsWith "\x7b\"" = false) :
    step limits r number line =
      if limits.size < r.size + line.length + 1 then
        ({ mode := .recovering },
          [issue r.startLine ("record exceeds " ++ Text.ofInt limits.size ++ " characters")
            ((grown r line).buffer.getLast?.getD [])])
      else if 0 < (r.scanner.feed line).depth then (grown r line, [])
      else if (r.scanner.feed line).depth < 0 then
        ({ mode := .recovering },
          [issue r.startLine "unbalanced closing brace" (grown r line).buffered])
      else ({ mode := .seeking }, [decode limits (grown r line).buffered r.startLine]) := by
  rw [step, if_pos inside, extend, if_neg (by simp [continues])]
  rfl

/-- What a line can do: nothing outside a record; begin one, in the place of an open one if there is
any; or go on with the open one, which is then too large, or still open, or closed once too often,
or complete. -/
inductive Stepped : Text → StreamReader × List StreamEvent → Prop where
  | passed {line : Text} (outside : r.mode ≠ .inRecord) (plain : line.startsWith "\x7b" = false) :
      Stepped line (r, [])
  | begun {line : Text} (outside : r.mode ≠ .inRecord) (begins : line.startsWith "\x7b" = true) :
      Stepped line (begin limits line number)
  | resumed {line : Text} (inside : r.mode = .inRecord) (begins : line.startsWith "\x7b\"" = true) :
      Stepped line ((begin limits line number).1,
        issue r.startLine "truncated record" r.buffered :: (begin limits line number).2)
  | outgrown {line : Text} (inside : r.mode = .inRecord)
      (continues : line.startsWith "\x7b\"" = false)
      (exceeds : limits.size < r.size + line.length + 1) :
      Stepped line ({ mode := .recovering },
        [issue r.startLine ("record exceeds " ++ Text.ofInt limits.size ++ " characters")
          ((grown r line).buffer.getLast?.getD [])])
  | continued {line : Text} (inside : r.mode = .inRecord)
      (continues : line.startsWith "\x7b\"" = false)
      (fits : r.size + line.length + 1 ≤ limits.size) (deep : 0 < (r.scanner.feed line).depth) :
      Stepped line (grown r line, [])
  | overclosed {line : Text} (inside : r.mode = .inRecord)
      (continues : line.startsWith "\x7b\"" = false)
      (fits : r.size + line.length + 1 ≤ limits.size) (excess : (r.scanner.feed line).depth < 0) :
      Stepped line ({ mode := .recovering },
        [issue r.startLine "unbalanced closing brace" (grown r line).buffered])
  | completed {line : Text} (inside : r.mode = .inRecord)
      (continues : line.startsWith "\x7b\"" = false)
      (fits : r.size + line.length + 1 ≤ limits.size) (closed : (r.scanner.feed line).depth = 0) :
      Stepped line ({ mode := .seeking }, [decode limits (grown r line).buffered r.startLine])

theorem stepped (line : Text) : Stepped limits r number line (step limits r number line) := by
  by_cases inside : r.mode = .inRecord
  · cases begins : line.startsWith "\x7b\"" with
    | true =>
      rw [step_resume limits r number line inside begins]
      exact .resumed inside begins
    | false =>
      rw [step_continue limits r number line inside begins]
      split
      · next exceeds => exact .outgrown inside begins exceeds
      · next fits =>
        have fits : r.size + line.length + 1 ≤ limits.size := Int.not_lt.mp fits
        split
        · next deep => exact .continued inside begins fits deep
        · split
          · next excess => exact .overclosed inside begins fits excess
          · exact .completed inside begins fits (by omega)
  · cases begins : line.startsWith "\x7b" with
    | true =>
      rw [step_begin limits r number line inside begins]
      exact .begun inside begins
    | false =>
      rw [step_chatter limits r number line inside begins]
      exact .passed inside begins

theorem startsWith_brace {line : Text} (begins : line.startsWith "\x7b\"" = true) :
    line.startsWith "\x7b" = true := by
  obtain ⟨rest, rfl⟩ := List.isPrefixOf_iff_prefix.mp begins
  rfl

end StreamReader
end LintCorpus
