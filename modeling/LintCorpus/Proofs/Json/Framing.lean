import LintCorpus.Proofs.Json.Object

/-!
The end of an object as the scanner sees it. The text of an object closes nothing that is not open,
so the scanner reads all of it, in one piece or in several, and it is inside the object up to the
last brace.
-/
namespace LintCorpus

namespace Scanner

/-- The text closes nothing but what is open, so the scanner reads all of it. -/
def Takes (s : Scanner) : Text → Prop
  | [] => True
  | c :: rest => s.overcloses c = false ∧ (s.step c).Takes rest

theorem takes_append {s : Scanner} {front back : Text} :
    s.Takes (front ++ back) ↔ s.Takes front ∧ (s.feed front).Takes back := by
  induction front generalizing s with
  | nil => exact (true_and _).to_iff.symm
  | cons c rest ih =>
    rw [List.cons_append, Takes, Takes, ih, and_assoc]
    refine and_congr_right fun closes => ?_
    rw [feed, if_neg (by simp [closes])]

theorem feed_append {s : Scanner} {front : Text} (takes : s.Takes front) (back : Text) :
    s.feed (front ++ back) = (s.feed front).feed back := by
  induction front generalizing s with
  | nil => rfl
  | cons c rest ih =>
    have goes : ¬s.overcloses c = true := by simp [takes.1]
    rw [List.cons_append, feed, feed, if_neg goes, if_neg goes, ih takes.2]

/-- A text that the scanner reads to its end may be cut anywhere. -/
theorem foldl_feed {s : Scanner} {pieces : List Text} (takes : s.Takes pieces.flatten) :
    pieces.foldl feed s = s.feed pieces.flatten := by
  induction pieces generalizing s with
  | nil => rfl
  | cons piece rest ih =>
    rw [List.flatten_cons] at takes
    obtain ⟨first, others⟩ := takes_append.mp takes
    rw [List.foldl_cons, ih others, List.flatten_cons, feed_append first]

example : feed (feed {} "\x7d") "\x7b" ≠ feed {} "\x7d\x7b" := by decide

end Scanner

namespace Json

open Reader

/-- What the reader accepts closes nothing that is not open. -/
theorem takes_of_foldlM {t : Text} {r last : Reader} (nested : r.Nested)
    (taken : t.foldlM step r = .ok last) : r.nesting.Takes t := by
  induction t generalizing r with
  | nil => trivial
  | cons c rest ih =>
    obtain ⟨next, first, others⟩ := foldlM_cons_ok taken
    have follows := step_follows nested first
    refine ⟨follows.closes, ?_⟩
    rw [← follows.nesting]
    exact ih follows.nested others

theorem takes_brace {t : Text} {last : Reader} (begins : t.startsWith "\x7b" = true)
    (taken : t.foldlM step {} = .ok last) : Scanner.Takes {} t := by
  obtain ⟨rest, rfl⟩ := Text.exists_of_brace begins
  obtain ⟨next, first, others⟩ := foldlM_cons_ok taken
  rw [step_brace] at first
  cases first
  exact ⟨rfl, takes_of_foldlM nested_opened others⟩

/-- The scanner is outside after the text of an object and inside after any beginning of it, and
pieces fed one after another leave it where the whole text does. -/
theorem scanner_frames_object (t : Text) (v : Value) (accepted : read t = .ok v)
    (begins : t.startsWith "\x7b" = true) (ends : t.getLast? = some '\x7d'.toNat) :
    (Scanner.feed {} t).depth = 0 ∧ (Scanner.feed {} t).inString = false ∧
      (∀ front back, front ≠ [] → back ≠ [] → front ++ back = t →
        1 ≤ (Scanner.feed {} front).depth) ∧
      ∀ pieces : List Text, pieces.flatten = t → pieces.foldl Scanner.feed {} = Scanner.feed {} t := by
  obtain ⟨last, members, taken, -, -, -, -⟩ := read_object begins accepted
  have closed := feed_object begins accepted
  refine ⟨by rw [closed], by rw [closed], fun front back first second cut => ?_, fun pieces cut => ?_⟩
  · subst cut
    obtain ⟨middle, before, after⟩ := foldlM_append_ok taken
    have opens : Text.startsWith front "\x7b" = true := by
      obtain ⟨c, rest, rfl⟩ := List.exists_cons_of_ne_nil first
      simpa [Text.startsWith, Text.ofString] using begins
    have final : back.getLast? = some '\x7d'.toNat := by
      rwa [List.getLast?_append_of_ne_nil _ second] at ends
    rw [(foldlM_brace opens before).2]
    exact open_before_end opens before after final
  · subst cut
    exact Scanner.foldl_feed (takes_brace begins taken)

/-- An object with braces, a backslash and a quotation mark in a string, and objects in an array. -/
theorem scanner_frames_object_nested :
    let t : Text := "\x7b\"a\\\\\": \"\x7d\x7d\\\"\x7b\", \"b\": [\x7b\x7d, \x7b\"c\": 1\x7d]\x7d"
    ∃ v, read t = .ok v ∧ (Scanner.feed {} t).depth = 0 ∧ (Scanner.feed {} t).inString = false ∧
      1 ≤ (Scanner.feed {} (t.take 11)).depth ∧
      [t.take 11, [], t.drop 11].foldl Scanner.feed {} = Scanner.feed {} t := by
  intro t
  have reads : (read t).toOption.isSome = true := by decide +kernel
  cases accepted : read t with
  | error e =>
    rw [accepted] at reads
    cases reads
  | ok v =>
    obtain ⟨closed, outside, inside, pieces⟩ := scanner_frames_object t v accepted (by decide) (by decide)
    refine ⟨v, rfl, closed, outside, inside _ (t.drop 11) (by decide) (by decide) ?_, pieces _ ?_⟩
    · exact List.take_append_drop 11 t
    · decide

end Json
end LintCorpus
