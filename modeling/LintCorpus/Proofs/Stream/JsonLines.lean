import LintCorpus.Proofs.Stream.Records
import LintCorpus.Proofs.Stream.Settlement
import Mathlib.Data.List.Induction

/-!
Streams with one record a line. The reader also cuts lines at terminators other than line feeds.
A record may hold three of them raw in its strings: what is left of it then stays open, and can
never be read, whatever follows. A line of chatter may hold any, and a piece of it may begin a
record. Streams without such lines are read as a whole, and with one such line no stream is.
-/
namespace LintCorpus.StreamReader
open StreamEvent (Reads)

variable {limits : StreamLimits} {r : StreamReader} {front : Text}

/-- The record that is open began with `front` and a line feed, or is to go on with one. -/
structure Doomed (r : StreamReader) (front : Text) : Prop where
  inside : r.mode = .inRecord
  present : r.buffer ≠ []
  holds : front ++ [0x0A] <+: r.buffered ++ [0x0A]

theorem Doomed.grown (doomed : Doomed r front) (line : Text) :
    front ++ [0x0A] <+: (r.grown line).buffered ∧ Doomed (r.grown line) front := by
  have longer : front ++ [0x0A] <+: (r.grown line).buffered := by
    have text := buffered_grown r line doomed.present
    rw [List.append_cons] at text
    rw [text]
    exact doomed.holds.trans (List.prefix_append _ _)
  exact ⟨longer, doomed.inside, by simp [StreamReader.grown], longer.trans (List.prefix_append _ _)⟩

/-- Something among the events is no record: an issue, or what stops the reader. -/
def Faulty (met : List StreamEvent) : Prop :=
  StreamEvent.issues met ≠ [] ∨ StreamEvent.stops met ≠ []

private theorem faulty_issue (issue : Issue) (met : List StreamEvent) :
    Faulty (.skipped issue :: met) := .inl (by simp [StreamEvent.issues])

private theorem faulty_stop (excess : Json.Excess) (met : List StreamEvent) :
    Faulty (.stopped excess :: met) := .inr (by simp [StreamEvent.stops])

/-- A record that no text goes on from to an end is told of as an issue or stops the reader, here or
later. -/
theorem Doomed.faulty (limits : StreamLimits)
    (unreadable : ∀ more, ∃ e, Json.read (front ++ 0x0A :: more) = .error e) (lines : List Text)
    (number : Nat) (doomed : Doomed r front) : Faulty (toEnd limits r number lines) := by
  -- A line either ends the record without reading it or leaves it as doomed as it was.
  induction lines generalizing r number with
  | nil =>
    have ends : r.finish.2 = [StreamReader.issue r.startLine "truncated record at end of input" r.buffered] := by
      rw [finish, if_pos doomed.inside]
    rw [toEnd, events_nil, after_nil, ends]
    exact faulty_issue _ _
  | cons line rest ih =>
    rw [toEnd_cons]
    have moved := stepped limits r number line
    generalize step limits r number line = result at moved
    cases moved with
    | passed outside => exact absurd doomed.inside outside
    | begun outside => exact absurd doomed.inside outside
    | resumed => exact faulty_issue _ _
    | outgrown => exact faulty_issue _ _
    | continued => exact ih (number + 1) (doomed.grown line).2
    | overclosed => exact faulty_issue _ _
    | completed =>
      obtain ⟨more, same⟩ := (doomed.grown line).1
      obtain ⟨e, error⟩ := unreadable more
      have text : front ++ 0x0A :: more = (r.grown line).buffered := by rw [← same]; simp
      have decoded := decoded limits (r.grown line).buffered r.startLine
      generalize decode limits (r.grown line).buffered r.startLine = event at decoded
      rw [← text] at decoded
      cases decoded with
      | record loaded => cases error.symm.trans (Json.read_of_load loaded)
      | other loaded => cases error.symm.trans (Json.read_of_load loaded)
      | malformed => exact faulty_issue _ _
      | exceeding => exact faulty_stop _ _

/-- A line of a stream with one record a line: if it begins with a brace, it is a record. -/
structure JsonLine (limits : StreamLimits) (line : Text) : Prop where
  valid : ∀ c ∈ line, c.isValidChar
  single : 0x0A ∉ line
  record : line.startsWith "\x7b" = true → 0x0D ∉ line ∧ ∃ v, Json.load limits.toLimits line = .ok v

/-- Whether a line means the same after it is cut at every terminator: no terminator stands in a
record, and no piece of a line of chatter begins one. -/
def Unbroken (line : Text) : Prop :=
  if line.startsWith "\x7b" then ∀ c ∈ line, c ≠ 0x85 ∧ c ≠ 0x2028 ∧ c ≠ 0x2029
  else ∀ piece ∈ line.lines, piece.startsWith "\x7b" = false

instance (line : Text) : Decidable (Unbroken line) :=
  inferInstanceAs (Decidable (ite _ (∀ c ∈ line, _) (∀ piece ∈ line.lines, _)))

private theorem foreign_of_endsLine {c : Nat} (ends : Text.endsLine c = true) (feed : c ≠ 0x0A)
    (carriage : c ≠ 0x0D) : Json.Reader.Foreign c := by
  have kinds : (0x0A ≤ c ∧ c ≤ 0x0D ∨ 0x1C ≤ c ∧ c ≤ 0x1E) ∨ c = 0x85 ∨ c = 0x2028 ∨ c = 0x2029 := by
    simpa [Text.endsLine, or_assoc] using ends
  refine ⟨?_, fun k low high same => by omega⟩
  simp only [Json.isSpace, Bool.or_eq_false_iff, beq_eq_false_iff_ne]
  omega

theorem JsonLine.cut {front back : Text} {c : Nat} (shaped : JsonLine limits (front ++ c :: back))
    (begins : (front ++ c :: back).startsWith "\x7b" = true) (ends : Text.endsLine c = true) :
    front.startsWith "\x7b" = true ∧ 0x80 ≤ c ∧
      ∃ q s, front.foldlM Json.Reader.step {} = .ok q ∧ q.phase = .string s := by
  obtain ⟨carriage, v, accepted⟩ := shaped.record begins
  have opens : front.startsWith "\x7b" = true := by
    refine Text.startsWith_of_append begins fun brace => ?_
    rw [brace] at ends
    cases ends
  have foreign := foreign_of_endsLine ends (fun same => shaped.single (by simp [same]))
    fun same => carriage (by simp [same])
  exact ⟨opens, Json.string_before_foreign opens (Json.read_of_load accepted) foreign⟩

theorem JsonLine.clean {line : Text} (shaped : JsonLine limits line) (unbroken : Unbroken line) :
    Clean limits line.lines (objectTexts [line]) := by
  cases begins : line.startsWith "\x7b" with
  | false =>
    rw [Unbroken, if_neg (by simp [begins])] at unbroken
    rw [objectTexts_of_plain begins]
    exact clean_chatter _ unbroken
  | true =>
    rw [Unbroken, if_pos begins] at unbroken
    rcases Text.exists_break line with plain | ⟨front, c, back, rfl, -, ends⟩
    · have present : line ≠ [] := by
        rintro rfl
        cases begins
      obtain ⟨-, v, accepted⟩ := shaped.record begins
      rw [objectTexts_of_brace begins, Text.lines_plain line plain present]
      exact clean_line begins accepted
    · exfalso
      obtain ⟨-, high, -⟩ := shaped.cut begins ends
      have others := unbroken c (by simp)
      simp [Text.endsLine] at ends
      omega

theorem toEnd_beginning (good rest : List Text) (more : rest ≠ [])
    (valid : ∀ t ∈ good ++ rest, ∀ c ∈ t, c.isValidChar)
    (clean : ∀ t ∈ good, Clean limits t.lines (objectTexts [t]))
    (unstopped : StreamEvent.stops
      (read limits {} (Utf8.encode (Text.join [0x0A] (good ++ rest)))).2 = []) :
    ∃ (r : StreamReader) (number : Nat) (met : List StreamEvent),
      r.mode = .seeking ∧ Reads limits met (objectTexts good) ∧
        (read limits {} (Utf8.encode (Text.join [0x0A] (good ++ rest)))).2 =
          met ++ toEnd limits r number (Text.join [0x0A] rest).lines := by
  obtain ⟨lines, earlier, cut⟩ : ∃ lines, Clean limits lines (objectTexts good) ∧
      (Text.join [0x0A] (good ++ rest)).lines = lines ++ (Text.join [0x0A] rest).lines := by
    by_cases empty : good = []
    · rw [empty]
      exact ⟨[], clean_chatter [] (by simp), rfl⟩
    · refine ⟨_, (clean_join good clean).feed, ?_⟩
      rw [Text.join_append _ _ _ empty more, List.append_assoc]
      exact Text.lines_append_feed _ _
  obtain ⟨between, reads⟩ := earlier {} 1 rfl
  refine ⟨_, 1 + lines.length, _, between, reads, ?_⟩
  rw [read_of_unstopped limits {} ((stops_read_iff limits {} _).mp unstopped), decode_join _ valid,
    cut]
  exact toEnd_append limits {} 1 lines _

theorem Delivered.rest {good rest : List Text} (delivered : Delivered limits (good ++ rest))
    (more : rest ≠ []) (valid : ∀ t ∈ good ++ rest, ∀ c ∈ t, c.isValidChar)
    (clean : ∀ t ∈ good, Clean limits t.lines (objectTexts [t])) :
    ∃ (r : StreamReader) (number : Nat), r.mode = .seeking ∧
      StreamEvent.issues (toEnd limits r number (Text.join [0x0A] rest).lines) = [] ∧
      StreamEvent.stops (toEnd limits r number (Text.join [0x0A] rest).lines) = [] ∧
      (StreamEvent.records (toEnd limits r number (Text.join [0x0A] rest).lines)).length =
        (objectTexts rest).length := by
  obtain ⟨r, number, met, seeking, before, whole⟩ :=
    toEnd_beginning good rest more valid clean delivered.reads.stops
  have issues := delivered.reads.issues
  have stops := delivered.reads.stops
  have count := delivered.reads.length
  rw [whole, StreamEvent.issues_append, List.append_eq_nil_iff] at issues
  rw [whole, StreamEvent.stops_append, List.append_eq_nil_iff] at stops
  rw [whole, StreamEvent.records_append, List.length_append, before.length,
    objectTexts_append, List.length_append] at count
  exact ⟨r, number, seeking, issues.2, stops.2, Nat.add_left_cancel count⟩

/-- A stream with a record that is cut is not read as a whole, whatever follows the record. -/
theorem Delivered.unbroken_record {good others : List Text} {line : Text}
    (delivered : Delivered limits (good ++ line :: others))
    (valid : ∀ t ∈ good ++ line :: others, ∀ c ∈ t, c.isValidChar)
    (clean : ∀ t ∈ good, Clean limits t.lines (objectTexts [t])) (shaped : JsonLine limits line)
    (begins : line.startsWith "\x7b" = true) : Unbroken line := by
  rw [Unbroken, if_pos begins]
  rcases Text.exists_break line with plain | ⟨front, c, back, rfl, plain, ends⟩
  · intro c member
    have other := plain c member
    refine ⟨?_, ?_, ?_⟩ <;> rintro rfl <;> cases other
  · exfalso
    obtain ⟨r, number, seeking, silent, unstopped, -⟩ := delivered.rest (by simp) valid clean
    obtain ⟨opens, -, q, s, taken, phase⟩ := shaped.cut begins ends
    obtain ⟨more, joined⟩ := Text.join_head [0x0A] (front ++ c :: back) others
    obtain ⟨rest, first⟩ := Text.lines_first front plain c ends (back ++ more)
    have cut : (Text.join [0x0A] ((front ++ c :: back) :: others)).lines = front :: rest := by
      rw [joined, List.append_assoc]
      exact first
    have outside : r.mode ≠ .inRecord := by simp [seeking]
    have deep := Json.open_in_string opens taken phase
    obtain ⟨next, opened, holds⟩ := step_opens limits opens taken deep outside number
    have doomed : Doomed next front := ⟨holds.inside, holds.present, by simp [holds.text]⟩
    have told := doomed.faulty limits (Json.read_feed_in_string opens taken phase) rest (number + 1)
    rw [cut, toEnd_cons, opened] at silent unstopped
    exact told.elim (absurd silent) (absurd unstopped)

theorem Delivered.unbroken_last {good : List Text} {line : Text}
    (delivered : Delivered limits (good ++ [line]))
    (valid : ∀ t ∈ good ++ [line], ∀ c ∈ t, c.isValidChar)
    (clean : ∀ t ∈ good, Clean limits t.lines (objectTexts [t])) (shaped : JsonLine limits line) :
    Unbroken line := by
  cases begins : line.startsWith "\x7b" with
  | true => exact delivered.unbroken_record valid clean shaped begins
  | false =>
    rw [Unbroken, if_neg (by simp [begins])]
    intro piece member
    by_contra opens
    obtain ⟨r, number, seeking, silent, unstopped, count⟩ := delivered.rest (by simp) valid clean
    rw [Text.join_singleton] at silent unstopped count
    have outside : r.mode ≠ .inRecord := by simp [seeking]
    have started := (starts_ne_nil_iff limits r number line.lines outside).mpr
      ⟨piece, member, by simpa using opens⟩
    -- The record that starts there is one too many, whether it is read or not.
    have total := count_toEnd limits r number outside line.lines
    rw [silent, unstopped, count, objectTexts_of_plain begins, starts_toEnd] at total
    exact started (List.length_eq_zero_iff.mp total.symm)

private theorem unbroken_of_beginnings (lines : List Text) (shaped : ∀ line ∈ lines, JsonLine limits line)
    (delivered : ∀ beginning, beginning <+: lines → Delivered limits beginning) :
    ∀ line ∈ lines, Unbroken line := by
  induction lines using List.reverseRecOn with
  | nil => simp
  | append_singleton init last ih =>
    have earlier : ∀ line ∈ init, Unbroken line :=
      ih (fun line member => shaped line (by simp [member])) fun beginning inside =>
        delivered beginning (inside.trans (List.prefix_append _ _))
    have clean : ∀ t ∈ init, Clean limits t.lines (objectTexts [t]) := fun t member =>
      (shaped t (by simp [member])).clean (earlier t member)
    have final : Unbroken last := (delivered _ List.prefix_rfl).unbroken_last
      (fun t member => (shaped t member).valid) clean (shaped last (by simp))
    intro line member
    rcases List.mem_append.mp member with before | here
    · exact earlier line before
    · rwa [List.mem_singleton.mp here]

private theorem unbroken_of_delivered (good rest : List Text)
    (shaped : ∀ line ∈ good ++ rest, JsonLine limits line) (earlier : ∀ line ∈ good, Unbroken line)
    (chatter : ∀ line ∈ rest, line.startsWith "\x7b" = false → Unbroken line)
    (delivered : Delivered limits (good ++ rest)) : ∀ line ∈ rest, Unbroken line := by
  induction rest generalizing good with
  | nil => simp
  | cons line others ih =>
    have clean : ∀ t ∈ good, Clean limits t.lines (objectTexts [t]) := fun t member =>
      (shaped t (by simp [member])).clean (earlier t member)
    have first : Unbroken line := by
      cases begins : line.startsWith "\x7b" with
      | false => exact chatter line (by simp) begins
      | true =>
        exact delivered.unbroken_record (fun t member => (shaped t member).valid) clean
          (shaped line (by simp)) begins
    have moved : good ++ line :: others = (good ++ [line]) ++ others := List.append_cons _ _ _
    have longer : ∀ t ∈ good ++ [line], Unbroken t :=
      List.forall_mem_append.mpr ⟨earlier, by simpa using first⟩
    have later := ih (good ++ [line]) (moved ▸ shaped) longer
      (fun t member => chatter t (by simp [member])) (moved ▸ delivered)
    exact List.forall_mem_cons.mpr ⟨first, later⟩

/-- Among streams with one record a line, those are read as a whole, at their end and at each line
before, that have no line which is cut. With chatter that is not cut, the end alone shows it. -/
theorem json_lines_delivered_iff (limits : StreamLimits) (lines : List Text)
    (shaped : ∀ line ∈ lines, JsonLine limits line) :
    ((∀ beginning, beginning <+: lines → Delivered limits beginning) ↔
        ∀ line ∈ lines, Unbroken line) ∧
      ((∀ line ∈ lines, line.startsWith "\x7b" = false → Unbroken line) →
        (Delivered limits lines ↔ ∀ line ∈ lines, Unbroken line)) := by
  have delivered : (∀ line ∈ lines, Unbroken line) →
      ∀ beginning, beginning <+: lines → Delivered limits beginning := by
    intro unbroken beginning inside
    refine delivered_of_clean beginning (fun t member => (shaped t (inside.mem member)).valid) ?_
    exact fun t member => (shaped t (inside.mem member)).clean (unbroken t (inside.mem member))
  refine ⟨⟨unbroken_of_beginnings lines shaped, delivered⟩, fun chatter => ⟨fun whole => ?_, ?_⟩⟩
  · exact unbroken_of_delivered [] lines shaped (by simp) chatter whole
  · exact fun unbroken => delivered unbroken lines List.prefix_rfl

theorem json_lines_delivered_accented :
    Delivered {} ["Compiling demo", "\x7b\"a\":\"\u00e9\"\x7d", ""] := by
  have shaped : ∀ line ∈ (["Compiling demo", "\x7b\"a\":\"\u00e9\"\x7d", ""] : List Text),
      JsonLine {} line := by
    intro line member
    rcases List.mem_cons.mp member with rfl | later
    · exact ⟨by decide, by decide, fun begins => by cases begins⟩
    · rcases List.mem_cons.mp later with rfl | last
      · exact ⟨by decide, by decide, fun _ => ⟨by decide, _, rfl⟩⟩
      · obtain rfl := List.mem_singleton.mp last
        exact ⟨by decide, by decide, fun begins => by cases begins⟩
  exact (json_lines_delivered_iff {} _ shaped).1.mpr (by decide) _ List.prefix_rfl

/-- A line separator in a string, where JSON allows it. -/
theorem line_separator_undelivered :
    JsonLine {} "\x7b\"a\":\"x\u2028y\"\x7d" ∧
      ¬Delivered {} ["\x7b\"a\":\"x\u2028y\"\x7d"] := by
  refine ⟨⟨by decide, by decide, fun _ => ⟨by decide, _, rfl⟩⟩, fun delivered => ?_⟩
  have silent := congrArg List.length delivered.reads.issues
  revert silent
  decide

end LintCorpus.StreamReader
