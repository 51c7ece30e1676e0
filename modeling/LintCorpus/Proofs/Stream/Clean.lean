import LintCorpus.Proofs.Stream.Start
import LintCorpus.Proofs.Text.Utf8

/-!
Runs that read what they are given. A clean run begins and ends between records, skips nothing and
decodes the objects of given texts in order; clean runs follow one another. A stream of clean parts
with line feeds between them is read as a whole.
-/
namespace LintCorpus

/-- What a run brings about when it reads the objects that the texts denote, in order, and nothing
else, and goes on to the end. -/
structure StreamEvent.Reads (limits : StreamLimits) (met : List StreamEvent) (texts : List Text) :
    Prop where
  records : (records met).map (fun members => .ok (.object members)) =
    texts.map (Json.load limits.toLimits)
  issues : issues met = []
  stops : stops met = []

namespace StreamEvent

variable {limits : StreamLimits}

theorem Reads.append {front back : List StreamEvent} {texts others : List Text}
    (first : Reads limits front texts) (second : Reads limits back others) :
    Reads limits (front ++ back) (texts ++ others) where
  records := by rw [records_append, List.map_append, List.map_append, first.records, second.records]
  issues := by rw [issues_append, first.issues, second.issues]; rfl
  stops := by rw [stops_append, first.stops, second.stops]; rfl

theorem reads_nil : Reads limits [] [] := ⟨rfl, rfl, rfl⟩

theorem Reads.length {met : List StreamEvent} {texts : List Text} (reads : Reads limits met texts) :
    (StreamEvent.records met).length = texts.length := by
  have same := congrArg List.length reads.records
  rwa [List.length_map, List.length_map] at same

end StreamEvent

namespace StreamReader
open StreamEvent (Reads)

def objectTexts (texts : List Text) : List Text := texts.filter (·.startsWith "\x7b")

theorem objectTexts_append (texts others : List Text) :
    objectTexts (texts ++ others) = objectTexts texts ++ objectTexts others :=
  List.filter_append texts others

theorem objectTexts_of_brace {t : Text} (begins : t.startsWith "\x7b" = true) :
    objectTexts [t] = [t] := by
  rw [objectTexts, List.filter_cons_of_pos (by simpa using begins), List.filter_nil]

theorem objectTexts_of_plain {t : Text} (plain : t.startsWith "\x7b" = false) :
    objectTexts [t] = [] := by
  rw [objectTexts, List.filter_cons_of_neg (by simp [plain]), List.filter_nil]

/-- A stream of texts with line feeds between them is read as the objects that the texts among them
that begin with a brace denote: each in order, with nothing skipped and nothing left open. -/
structure Delivered (limits : StreamLimits) (texts : List Text) : Prop where
  seeking : (read limits {} (Utf8.encode (Text.join [0x0A] texts))).1.mode = .seeking
  reads : Reads limits (read limits {} (Utf8.encode (Text.join [0x0A] texts))).2 (objectTexts texts)

/-- From between two records the lines lead to between two records, and the texts are read. -/
def Clean (limits : StreamLimits) (lines texts : List Text) : Prop :=
  ∀ (r : StreamReader) (number : Nat), r.mode = .seeking →
    (after limits r number lines).mode = .seeking ∧ Reads limits (events limits r number lines) texts

variable {limits : StreamLimits}

theorem Clean.append {lines others texts more : List Text} (first : Clean limits lines texts)
    (second : Clean limits others more) : Clean limits (lines ++ others) (texts ++ more) := by
  intro r number seeking
  obtain ⟨between, earlier⟩ := first r number seeking
  obtain ⟨final, later⟩ := second _ (number + lines.length) between
  rw [after_append, events_append]
  exact ⟨final, earlier.append later⟩

theorem clean_chatter (lines : List Text) (plain : ∀ line ∈ lines, line.startsWith "\x7b" = false) :
    Clean limits lines [] := by
  induction lines with
  | nil => exact fun r number seeking => ⟨seeking, StreamEvent.reads_nil⟩
  | cons line rest ih =>
    intro r number seeking
    have passed := step_chatter limits r number line (by simp [seeking]) (plain line (by simp))
    obtain ⟨final, later⟩ := ih (fun other member => plain other (by simp [member])) r (number + 1) seeking
    rw [after_cons, events_cons, passed]
    exact ⟨final, later⟩

theorem decode_object {t : Text} {v : Value} (begins : t.startsWith "\x7b" = true)
    (accepted : Json.load limits.toLimits t = .ok v) (number : Nat) :
    Reads limits [decode limits t number] [t] := by
  obtain ⟨last, members, -, -, -, -, rfl⟩ := Json.read_object begins (Json.read_of_load accepted)
  have decoded : decode limits t number = .decoded members := by
    unfold decode
    rw [accepted]
  rw [decoded]
  exact ⟨by simp [StreamEvent.records, accepted], rfl, rfl⟩

theorem clean_line {line : Text} {v : Value} (begins : line.startsWith "\x7b" = true)
    (accepted : Json.load limits.toLimits line = .ok v) : Clean limits [line] [line] := by
  intro r number seeking
  have closed : (Scanner.feed {} line).depth = 0 := by
    rw [Json.feed_object begins (Json.read_of_load accepted)]
  have taken : begin limits line number =
      ({ mode := .seeking }, [.started number, decode limits line number]) := by
    rw [begin, if_pos closed]
  have reads := decode_object begins accepted number
  rw [after_cons, events_cons, step_begin limits r number line (by simp [seeking]) begins, taken]
  exact ⟨rfl, reads.records, reads.issues, reads.stops⟩

theorem Clean.feed {t : Text} {texts : List Text} (clean : Clean limits t.lines texts) :
    Clean limits (Text.lines (t ++ [0x0A])) texts := by
  rcases Text.lines_append_final_feed t with same | more
  · rwa [same]
  · have empty : Clean limits [[]] [] := clean_chatter [[]] fun line member => by
      rw [List.mem_singleton.mp member]
      rfl
    rw [more, ← List.append_nil texts]
    exact clean.append empty

/-- The lines of texts with line feeds between them are clean if those of each text are. -/
theorem clean_join (texts : List Text)
    (clean : ∀ t ∈ texts, Clean limits t.lines (objectTexts [t])) :
    Clean limits (Text.join [0x0A] texts).lines (objectTexts texts) := by
  induction texts with
  | nil => exact clean_chatter [] (by simp)
  | cons t rest ih =>
    have first := clean t (by simp)
    have others := ih fun other member => clean other (by simp [member])
    by_cases more : rest = []
    · rw [more, Text.join_singleton]
      exact first
    · have cut : Text.join [0x0A] (t :: rest) = t ++ 0x0A :: Text.join [0x0A] rest := by
        rw [Text.join_cons _ _ _ more, List.append_assoc]
        rfl
      have split : objectTexts (t :: rest) = objectTexts [t] ++ objectTexts rest :=
        objectTexts_append [t] rest
      rw [cut, Text.lines_append_feed, split]
      exact first.feed.append others

theorem decode_join (texts : List Text) (valid : ∀ t ∈ texts, ∀ c ∈ t, c.isValidChar) :
    Utf8.decode (Utf8.encode (Text.join [0x0A] texts)) = Text.join [0x0A] texts := by
  refine Utf8.decode_encode _ fun c member => ?_
  rcases Text.mem_join member with feed | ⟨t, among, inside⟩
  · obtain rfl := List.mem_singleton.mp feed
    decide
  · exact valid t among c inside

theorem delivered_of_clean (texts : List Text) (valid : ∀ t ∈ texts, ∀ c ∈ t, c.isValidChar)
    (clean : ∀ t ∈ texts, Clean limits t.lines (objectTexts [t])) : Delivered limits texts := by
  obtain ⟨seeking, reads⟩ := clean_join texts clean {} 1 rfl
  have whole := read_closed limits {} (decode_join texts valid) reads.stops (by simp [seeking])
  exact ⟨by rw [whole]; exact seeking, by rw [whole]; exact reads⟩

end StreamReader
end LintCorpus
