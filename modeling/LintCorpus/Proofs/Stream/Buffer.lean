import LintCorpus.Proofs.Stream.Settlement

/-!
What a reader keeps of an open record. The lines that continue a record are counted before they are
kept, but the line that opens it is not, so a record is within the limit on its size exactly if its
first line is.
-/
namespace LintCorpus

namespace StreamReader

/-- Something is kept exactly inside a record, and its size is known. -/
structure Consistent (r : StreamReader) : Prop where
  holds_iff : r.buffer ≠ [] ↔ r.mode = .inRecord
  size : r.size = r.buffered.length

theorem consistent_empty {mode : StreamMode} (outside : mode ≠ .inRecord) :
    Consistent { mode } := ⟨by simp [outside], rfl⟩

theorem consistent_open (line : Text) (number : Nat) (scanner : Scanner) :
    Consistent ⟨.inRecord, [line], line.length, number, scanner⟩ :=
  ⟨by simp, congrArg List.length (Text.join_singleton [0x0A] line).symm⟩

theorem consistent_begin (limits : StreamLimits) (line : Text) (number : Nat) :
    (begin limits line number).1.Consistent := by
  have begun := begun limits number line
  generalize begin limits line number = result at begun
  cases begun with
  | completed => exact consistent_empty (by simp)
  | overclosed => exact consistent_empty (by simp)
  | opened => exact consistent_open line number _

variable {limits : StreamLimits} {r : StreamReader} {number : Nat} {line : Text}

namespace Consistent

theorem present (consistent : r.Consistent) (inside : r.mode = .inRecord) : r.buffer ≠ [] :=
  consistent.holds_iff.mpr inside

theorem buffered_eq_nil (consistent : r.Consistent) (outside : r.mode ≠ .inRecord) :
    r.buffered = [] := by
  have empty : r.buffer = [] := Decidable.not_not.mp (mt consistent.holds_iff.mp outside)
  rw [buffered, empty]
  rfl

theorem size_grown (consistent : r.Consistent) (line : Text) :
    (r.buffered ++ 0x0A :: line).length = r.size + line.length + 1 := by
  rw [List.length_append, List.length_cons, consistent.size, Nat.add_assoc]

theorem grown (consistent : r.Consistent) (inside : r.mode = .inRecord) (line : Text) :
    (r.grown line).Consistent := by
  refine ⟨by simp [StreamReader.grown, inside], ?_⟩
  rw [buffered_grown r line (consistent.present inside), consistent.size_grown]
  rfl

theorem step (consistent : r.Consistent) : (step limits r number line).1.Consistent := by
  have moved := stepped limits r number line
  generalize StreamReader.step limits r number line = result at moved
  cases moved with
  | passed => exact consistent
  | begun => exact consistent_begin limits line number
  | resumed => exact consistent_begin limits line number
  | outgrown => exact consistent_empty (by simp)
  | continued inside => exact consistent.grown inside line
  | overclosed => exact consistent_empty (by simp)
  | completed => exact consistent_empty (by simp)

theorem after (consistent : r.Consistent) (lines : List Text) :
    (after limits r number lines).Consistent := by
  induction lines generalizing r number with
  | nil => exact consistent
  | cons line rest ih =>
    rw [after_cons]
    exact ih consistent.step

end Consistent

theorem step_starts (starts : r.Starts line) :
    (step limits r number line).1 = (begin limits line number).1 := by
  by_cases inside : r.mode = .inRecord
  · have marked : line.startsWith "\x7b\"" = true :=
      starts.elim id fun plain => absurd inside plain.2
    rw [step_resume limits r number line inside marked]
  · rw [step_begin limits r number line inside starts.brace]

theorem buffered_begin (opens : 0 < (Scanner.feed {} line).depth) :
    (begin limits line number).1.buffered = line := by
  rw [begin_open limits number opens]
  exact Text.join_singleton [0x0A] line

theorem mode_begin (closed : ¬0 < (Scanner.feed {} line).depth) :
    (begin limits line number).1.mode ≠ .inRecord := by
  have begun := begun limits number line
  generalize begin limits line number = result at begun
  cases begun with
  | completed => simp
  | overclosed => simp
  | opened opens => exact absurd opens closed

def oversize (limits : StreamLimits) : Text :=
  "record exceeds " ++ Text.ofInt limits.size ++ " characters"

/-- A line keeps what is held within the limit if any record that it leaves open itself is. -/
theorem bounded_step (consistent : r.Consistent) (least : 0 ≤ limits.size)
    (bounded : (r.buffered.length : Int) ≤ limits.size)
    (short : r.Starts line → 0 < (Scanner.feed {} line).depth → (line.length : Int) ≤ limits.size) :
    ((step limits r number line).1.buffered.length : Int) ≤ limits.size := by
  have begun : r.Starts line → ((begin limits line number).1.buffered.length : Int) ≤ limits.size := by
    intro starts
    by_cases opens : 0 < (Scanner.feed {} line).depth
    · rw [buffered_begin opens]
      exact short starts opens
    · rw [(consistent_begin limits line number).buffered_eq_nil (mode_begin opens)]
      exact least
  have moved := stepped limits r number line
  generalize step limits r number line = result at moved
  cases moved with
  | passed => exact bounded
  | begun outside begins => exact begun (.inr ⟨begins, outside⟩)
  | resumed inside begins => exact begun (.inl begins)
  | continued inside continues fits =>
    rw [buffered_grown r line (consistent.present inside), consistent.size_grown]
    exact fits
  | outgrown => exact least
  | overclosed => exact least
  | completed => exact least

/-- The record that is held behind a line if no size counts: the number of its first line and its
text. -/
def collected? (r : StreamReader) (number : Nat) (line : Text) : Option (Nat × Text) :=
  if r.Starts line then
    if 0 < (Scanner.feed {} line).depth then some (number, line) else none
  else if r.mode = .inRecord then some (r.startLine, r.buffered ++ 0x0A :: line)
  else none

/-- Only a record that goes on is given up for its size, if those that begin are small enough. -/
theorem step_collected (consistent : r.Consistent) {first : Nat} {text : Text}
    (short : r.Starts line → 0 < (Scanner.feed {} line).depth → (line.length : Int) ≤ limits.size)
    (collected : collected? r number line = some (first, text)) (exceeds : limits.size < text.length) :
    ∃ excerpt, step limits r number line =
      ({ mode := .recovering }, [.skipped ⟨first, oversize limits, excerpt⟩]) := by
  unfold collected? at collected
  split at collected
  · next starts =>
    split at collected
    · next opens =>
      cases collected
      exact absurd (short starts opens) (Int.not_le.mpr exceeds)
    · cases collected
  · next goes =>
    split at collected
    · next inside =>
      cases collected
      have continues : line.startsWith "\x7b\"" = false := continues_of_not_starts goes
      rw [consistent.size_grown] at exceeds
      rw [step_continue limits r number line inside continues, if_pos (by omega)]
      exact ⟨_, rfl⟩
    · cases collected

section Lines

variable (limits : StreamLimits) (lines : List Text)

def between (i : Nat) : StreamReader := after limits {} 1 (lines.take i)

/-- Between lines nothing is held that is larger than the limit, and a record that would be is given
up, with one issue. -/
structure Limited : Prop where
  bounded : ∀ i ≤ lines.length, ((between limits lines i).buffered.length : Int) ≤ limits.size
  dropped : ∀ i, ∀ inside : i < lines.length, ∀ first text,
    collected? (between limits lines i) (i + 1) lines[i] = some (first, text) →
      limits.size < text.length →
      (between limits lines (i + 1)).mode = .recovering ∧
      (between limits lines (i + 1)).buffer = [] ∧
      ((StreamEvent.issues (toEnd limits {} 1 lines)).filter fun issue =>
        issue.line == (first : Int)).map Issue.reason = [oversize limits]

variable {limits lines} {i : Nat}

theorem consistent_between : (between limits lines i).Consistent :=
  (consistent_empty (by simp)).after (lines.take i)

theorem between_succ (inside : i < lines.length) :
    between limits lines (i + 1) = (step limits (between limits lines i) (i + 1) lines[i]).1 := by
  have size : (lines.take i).length = i := List.length_take_of_le (Nat.le_of_lt inside)
  rw [between, List.take_succ_eq_append_getElem inside, after_concat, size, Nat.add_comm 1]
  rfl

theorem mem_toEnd (inside : i < lines.length) {event : StreamEvent}
    (met : event ∈ (step limits (between limits lines i) (i + 1) lines[i]).2) :
    event ∈ toEnd limits {} 1 lines := by
  have size : (lines.take i).length = i := List.length_take_of_le (Nat.le_of_lt inside)
  have cut : lines = lines.take i ++ lines[i] :: lines.drop (i + 1) := by
    rw [List.getElem_cons_drop, List.take_append_drop]
  have whole := toEnd_append limits {} 1 (lines.take i) (lines[i] :: lines.drop (i + 1))
  rw [← cut, toEnd_cons, size, Nat.add_comm 1] at whole
  rw [whole]
  exact List.mem_append_right _ (List.mem_append_left _ met)

theorem filter_issues {issue : Issue} (met : .skipped issue ∈ toEnd limits {} 1 lines) :
    ((StreamEvent.issues (toEnd limits {} 1 lines)).filter fun other => other.line == issue.line) =
      [issue] := by
  have listed : issue ∈ StreamEvent.issues (toEnd limits {} 1 lines) :=
    List.mem_filterMap.mpr ⟨_, met, rfl⟩
  have ascends := (issues_toEnd limits 1 lines).2
  obtain ⟨front, back, cut⟩ := List.append_of_mem listed
  rw [cut, List.map_append, List.map_cons, List.pairwise_append, List.pairwise_cons] at ascends
  obtain ⟨-, ⟨behind, -⟩, across⟩ := ascends
  have before : front.filter (fun other => other.line == issue.line) = [] := by
    rw [List.filter_eq_nil_iff]
    intro other early
    have less := across _ (List.mem_map_of_mem early) issue.line List.mem_cons_self
    simp [Int.ne_of_lt less]
  have after : back.filter (fun other => other.line == issue.line) = [] := by
    rw [List.filter_eq_nil_iff]
    intro other late
    have less := behind _ (List.mem_map_of_mem late)
    simp [(Int.ne_of_lt less).symm]
  rw [cut, List.filter_append, before, List.filter_cons_of_pos (by simp), after, List.nil_append]

end Lines

/-- What a reader holds between lines is within the limit, and records that would exceed it are
given up, exactly if every line that opens a record without closing it is within the limit. -/
theorem limited_iff {limits : StreamLimits} (least : 0 ≤ limits.size) (stream : Bytes) :
    let lines := reached limits {} 1 (Utf8.decode stream).lines
    Limited limits lines ↔ ∀ i, ∀ inside : i < lines.length,
      (between limits lines i).Starts lines[i] → 0 < (Scanner.feed {} lines[i]).depth →
        (lines[i].length : Int) ≤ limits.size := by
  intro lines
  constructor
  · intro limited i inside starts opens
    have held := limited.bounded (i + 1) inside
    rwa [between_succ inside, step_starts starts, buffered_begin opens] at held
  · intro short
    -- Only lines that open a record can break the bound, because `extend` checks it for the others.
    have bounded : ∀ i ≤ lines.length, ((between limits lines i).buffered.length : Int) ≤ limits.size := by
      intro i
      induction i with
      | zero => exact fun _ => least
      | succ i ih =>
        intro inside
        rw [between_succ inside]
        exact bounded_step consistent_between least (ih (Nat.le_of_succ_le inside)) (short i inside)
    refine ⟨bounded, fun i inside first text collected exceeds => ?_⟩
    obtain ⟨excerpt, moved⟩ :=
      step_collected consistent_between (short i inside) collected exceeds
    have met : .skipped ⟨first, oversize limits, excerpt⟩ ∈ toEnd limits {} 1 lines :=
      mem_toEnd inside (by rw [moved]; exact List.mem_singleton_self _)
    have only := filter_issues met
    rw [between_succ inside, moved, only]
    exact ⟨rfl, rfl, rfl⟩

/-- A record of two lines, of which the first is within the limit and both are not. -/
theorem limited_iff_outgrown :
    let limits : StreamLimits := { size := 8 }
    let stream := Utf8.encode "\x7b\"a\":\n[1, 2, 3]\x7d\n"
    let lines := reached limits {} 1 (Utf8.decode stream).lines
    0 ≤ limits.size ∧ lines.length = 2 ∧ Limited limits lines ∧
      (StreamEvent.issues (toEnd limits {} 1 lines)).map Issue.reason =
        ["record exceeds 8 characters"] := by
  intro limits stream lines
  have limited : Limited limits lines := (limited_iff (by decide) stream).mpr (by decide)
  exact ⟨by decide, by decide, limited, by decide⟩

/-- A line that opens a record is held however long it is, and told as cut off at the end. -/
theorem opening_line_unlimited :
    let limits : StreamLimits := { size := 3 }
    let stream := Utf8.encode "\x7b\"aaaa\n"
    let lines := reached limits {} 1 (Utf8.decode stream).lines
    ¬Limited limits lines ∧ (between limits lines 1).mode = .inRecord ∧
      (between limits lines 1).buffered.length = 6 ∧ (read limits {} stream).1.mode = .seeking ∧
      (StreamEvent.issues (read limits {} stream).2).map Issue.reason =
        ["truncated record at end of input"] := by
  intro limits stream lines
  have long : (between limits lines 1).buffered.length = 6 := by decide
  refine ⟨fun limited => ?_, by decide, long, by decide, by decide⟩
  have held := limited.bounded 1 (by decide)
  rw [long] at held
  exact absurd held (by decide)

end StreamReader
end LintCorpus
