import LintCorpus.Proofs.Stream.Excess
import LintCorpus.Proofs.Stream.OpenRecord

/-!
How a stream comes out. Every record that starts is settled once, by the record that its lines
denote or by an issue, exactly if no text that the lines make complete is beyond the limits of JSON
texts: such a text stops the reader, and neither the record nor anything behind it is told of.
-/
namespace LintCorpus.StreamReader

variable (limits : StreamLimits) {r : StreamReader} {number : Nat} {lines : List Text}

/-- The text that a line makes complete, if it does. -/
def completed? (r : StreamReader) (line : Text) : Option Text :=
  if r.Starts line then
    if (Scanner.feed {} line).depth = 0 then some line else none
  else if r.mode = .inRecord ∧ (r.size + line.length + 1 : Int) ≤ limits.size ∧
      (r.scanner.feed line).depth = 0 then some (r.grown line).buffered
  else none

private theorem stops_decode (t : Text) (line : Nat) :
    StreamEvent.stops [decode limits t line] = (Json.excess? limits.toLimits t).toList := by
  rw [Json.excess?]
  have decoded := decoded limits t line
  generalize decode limits t line = event at decoded
  cases decoded with
  | record loaded => rw [loaded]; rfl
  | other loaded => rw [loaded]; rfl
  | malformed refused => rw [refused]; rfl
  | exceeding beyond => rw [beyond]; rfl

private theorem stops_begin (line : Text) :
    StreamEvent.stops (begin limits line number).2 =
      ((if (Scanner.feed {} line).depth = 0 then some line else none).bind
        (Json.excess? limits.toLimits)).toList := by
  have begun := begun limits number line
  generalize begin limits line number = result at begun
  cases begun with
  | completed closed =>
    rw [if_pos closed]
    exact stops_decode limits line number
  | overclosed excess => rw [if_neg (by omega)]; rfl
  | opened opens => rw [if_neg (by omega)]; rfl

/-- A line stops the reader exactly by completing a text beyond the limits. -/
theorem stops_step (line : Text) :
    StreamEvent.stops (step limits r number line).2 =
      ((completed? limits r line).bind (Json.excess? limits.toLimits)).toList := by
  unfold completed?
  have moved := stepped limits r number line
  generalize step limits r number line = result at moved
  cases moved with
  | passed outside plain =>
    rw [if_neg fun starts : Starts r line => by simp [starts.brace] at plain,
      if_neg fun inside => outside inside.1]
    rfl
  | begun outside begins =>
    rw [if_pos (.inr ⟨begins, outside⟩)]
    exact stops_begin limits line
  | resumed inside begins =>
    rw [if_pos (.inl begins)]
    exact stops_begin limits line
  | outgrown inside continues exceeds =>
    rw [if_neg (not_starts inside continues), if_neg fun fits => by omega]
    rfl
  | continued inside continues fits deep =>
    rw [if_neg (not_starts inside continues), if_neg fun closed => by omega]
    rfl
  | overclosed inside continues fits excess =>
    rw [if_neg (not_starts inside continues), if_neg fun closed => by omega]
    rfl
  | completed inside continues fits closed =>
    rw [if_neg (not_starts inside continues), if_pos ⟨inside, fits, closed⟩]
    exact stops_decode limits _ _

theorem stops_events_iff (r : StreamReader) (number : Nat) (lines : List Text) :
    StreamEvent.stops (events limits r number lines) = [] ↔
      ∀ front line back, lines = front ++ line :: back → ∀ text,
        completed? limits (after limits r number front) line = some text →
          Json.excess? limits.toLimits text = none := by
  induction lines generalizing r number with
  | nil => simp [StreamEvent.stops]
  | cons first rest ih =>
    rw [events_cons, StreamEvent.stops_append, List.append_eq_nil_iff, ih, stops_step,
      Option.toList_eq_nil_iff, Option.bind_eq_none_iff]
    constructor
    · rintro ⟨here, later⟩ front line back cut
      rcases front with - | ⟨head, front⟩
      · cases cut
        exact here
      · cases cut
        exact later front line back rfl
    · intro all
      refine ⟨all [] first rest rfl, fun front line back cut => ?_⟩
      rw [cut] at all
      exact all (first :: front) line back rfl

/-- A record is what some lines denote, the first of which has the given number. -/
def Denotes (lines : List Text) (number : Nat) (record : Members) : Prop :=
  ∃ earlier block later, lines = earlier ++ block ++ later ∧ number = earlier.length + 1 ∧
    Json.load limits.toLimits (Text.join [0x0A] block) = .ok (.object record)

/-- Every text that the lines of a stream make complete is within the limits of JSON texts. -/
def Within (stream : Bytes) : Prop :=
  ∀ front line back, (Utf8.decode stream).lines = front ++ line :: back → ∀ text,
    completed? limits (after limits {} 1 front) line = some text →
      Json.excess? limits.toLimits text = none

theorem within_iff (stream : Bytes) :
    Within limits stream ↔ StreamEvent.stops (read limits {} stream).2 = [] := by
  rw [stops_read_iff, stops_events_iff]
  rfl

theorem ofStream_of_within {stream : Bytes} (package : Text) (within : Within limits stream) :
    Parsed.ofStream limits stream package =
      .ok (Parsed.ofEvents (read limits {} stream).2 package) := by
  rw [Parsed.ofStream, (within_iff limits stream).mp within]

theorem ofStream_of_not_within {stream : Bytes} (package : Text)
    (beyond : ¬Within limits stream) :
    ∃ excess, Parsed.ofStream limits stream package = .error excess := by
  rw [within_iff] at beyond
  obtain ⟨excess, others, stops⟩ := List.exists_cons_of_ne_nil beyond
  exact ⟨excess, by rw [Parsed.ofStream, stops]⟩

theorem within_of_ofStream {stream : Bytes} {package : Text} {parsed : Parsed}
    (read : Parsed.ofStream limits stream package = .ok parsed) : Within limits stream := by
  by_contra beyond
  obtain ⟨excess, stopped⟩ := ofStream_of_not_within limits package beyond
  rw [read] at stopped
  cases stopped

variable {limits}

end LintCorpus.StreamReader
