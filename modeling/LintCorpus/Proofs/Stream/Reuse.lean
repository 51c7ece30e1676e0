import LintCorpus.Proofs.Stream.Buffer

/-!
One reader for several streams. Outside a record a reader looks at nothing that it was left with, so
it reads every stream as a new reader does, whatever the streams before came to.
-/
namespace LintCorpus.StreamReader

/-- Two readers that no line tells apart. -/
def Matches (r s : StreamReader) : Prop := r = s ∨ r.mode ≠ .inRecord ∧ s.mode ≠ .inRecord

namespace Matches

variable (limits : StreamLimits) {r s : StreamReader}

theorem step (alike : r.Matches s) (number : Nat) (line : Text) :
    (step limits r number line).2 = (step limits s number line).2 ∧
      (step limits r number line).1.Matches (step limits s number line).1 := by
  rcases alike with rfl | ⟨first, second⟩
  · exact ⟨rfl, .inl rfl⟩
  · cases begins : line.startsWith "\x7b" with
    | true =>
      rw [step_begin limits r number line first begins, step_begin limits s number line second begins]
      exact ⟨rfl, .inl rfl⟩
    | false =>
      rw [step_chatter limits r number line first begins,
        step_chatter limits s number line second begins]
      exact ⟨rfl, .inr ⟨first, second⟩⟩

theorem finish (alike : r.Matches s) : r.finish.2 = s.finish.2 := by
  rcases alike with rfl | ⟨first, second⟩
  · rfl
  · rw [StreamReader.finish, StreamReader.finish, if_neg first, if_neg second]

theorem toEnd (alike : r.Matches s) (number : Nat) (lines : List Text) :
    toEnd limits r number lines = toEnd limits s number lines := by
  induction lines generalizing r s number with
  | nil => exact alike.finish
  | cons line rest ih =>
    obtain ⟨met, next⟩ := alike.step limits number line
    rw [toEnd_cons, toEnd_cons, met, ih next]

theorem reached (alike : r.Matches s) (number : Nat) (lines : List Text) :
    reached limits r number lines = reached limits s number lines := by
  induction lines generalizing r s number with
  | nil => rfl
  | cons line rest ih =>
    obtain ⟨met, next⟩ := alike.step limits number line
    rw [StreamReader.reached, StreamReader.reached, met, ih next]

end Matches

/-- A reader that is inside no record and holds nothing. -/
structure Idle (r : StreamReader) : Prop where
  outside : r.mode ≠ .inRecord
  buffer : r.buffer = []
  size : r.size = 0

theorem Consistent.idle {r : StreamReader} (consistent : r.Consistent)
    (outside : r.mode ≠ .inRecord) : r.Idle where
  outside
  buffer := Decidable.not_not.mp (mt consistent.holds_iff.mp outside)
  size := by rw [consistent.size, consistent.buffered_eq_nil outside, List.length_nil]

theorem Idle.consistent {r : StreamReader} (idle : r.Idle) : r.Consistent where
  holds_iff := iff_of_false (not_not.mpr idle.buffer) idle.outside
  size := by rw [idle.size, buffered, idle.buffer]; rfl

theorem idle_read {r : StreamReader} (idle : r.Idle) (limits : StreamLimits) (stream : Bytes) :
    (read limits r stream).1.Idle := by
  rw [read_eq]
  dsimp only
  unfold finish
  split
  · exact ⟨by simp, rfl, rfl⟩
  · next outside => exact (idle.consistent.after _).idle outside

/-- Reads streams one after the other with one reader: the reader after each of them, and what it
brought about. -/
def readEach (limits : StreamLimits) (r : StreamReader) :
    List Bytes → List (StreamReader × List StreamEvent)
  | [] => []
  | stream :: rest => read limits r stream :: readEach limits (read limits r stream).1 rest

theorem readEach_idle {r : StreamReader} (idle : r.Idle) (limits : StreamLimits)
    (streams : List Bytes) :
    (readEach limits r streams).map Prod.snd = streams.map (fun stream => (read limits {} stream).2) ∧
      ∀ result ∈ readEach limits r streams, result.1.Idle := by
  induction streams generalizing r with
  | nil => exact ⟨rfl, by simp [readEach]⟩
  | cons stream rest ih =>
    have new : r.Matches {} := .inr ⟨idle.outside, by simp⟩
    have same : (read limits r stream).2 = (read limits {} stream).2 := by
      rw [read_eq, read_eq, new.reached limits 1]
      exact new.toEnd limits 1 _
    obtain ⟨met, left⟩ := ih (idle_read idle limits stream)
    constructor
    · rw [readEach, List.map_cons, List.map_cons, same, met]
    · exact List.forall_mem_cons.mpr ⟨idle_read idle limits stream, left⟩

/-- A reader that is used again reads each stream as a new one does and holds nothing between them;
and what is read from any line on, and up to where, does not tell which reader outside a record
reads it. -/
theorem streams_read_apart (limits : StreamLimits) (streams : List Bytes) :
    (readEach limits {} streams).map Prod.snd =
        streams.map (fun stream => (read limits {} stream).2) ∧
      (∀ result ∈ readEach limits {} streams,
        result.1.mode ≠ .inRecord ∧ result.1.buffer = [] ∧ result.1.size = 0) ∧
      ∀ r s : StreamReader, r.mode ≠ .inRecord → s.mode ≠ .inRecord → ∀ number lines,
        reached limits r number lines = reached limits s number lines ∧
          toEnd limits r number lines = toEnd limits s number lines := by
  have new : Idle {} := ⟨by simp, rfl, rfl⟩
  obtain ⟨met, left⟩ := readEach_idle new limits streams
  refine ⟨met, fun result among => ?_, fun r s first second number lines => ?_⟩
  · have idle := left result among
    exact ⟨idle.outside, idle.buffer, idle.size⟩
  · have alike : r.Matches s := .inr ⟨first, second⟩
    exact ⟨alike.reached limits number lines, alike.toEnd limits number lines⟩

/-- A stream that ends while the reader recovers, and a record behind it. -/
theorem streams_read_apart_recovering :
    let limits : StreamLimits := { size := 64 }
    let broken := Utf8.encode "\x7b\x7d\x7d\n"
    let sound := Utf8.encode "\x7b\"a\":1\x7d\n"
    ∃ first second : StreamReader × List StreamEvent,
      readEach limits {} [broken, sound] = [first, second] ∧ first.1.mode = .recovering ∧
        first.1.buffer = [] ∧ second.2 = (read limits {} sound).2 ∧
        (StreamEvent.records second.2).length = 1 := by
  intro limits broken sound
  obtain ⟨met, left, -⟩ := streams_read_apart limits [broken, sound]
  refine ⟨_, _, rfl, by decide, (left _ List.mem_cons_self).2.1, ?_, by decide⟩
  exact (List.cons.inj (List.cons.inj met).2).1

end LintCorpus.StreamReader
