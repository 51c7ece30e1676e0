import LintCorpus.Proofs.Failure
import LintCorpus.Proofs.Json.Nesting

/-!
Texts that begin with a brace. If such a text is JSON at all it is an object, the scanner is back at
depth zero at its end, and before the brace that closes it the scanner is inside. Raw code points
above ASCII stand only in strings, where a line feed may not stand.
-/
namespace LintCorpus

theorem Text.startsWith_append {t start : Text} (begins : t.startsWith start = true) (more : Text) :
    (t ++ more).startsWith start = true := by
  obtain ⟨rest, rfl⟩ := List.isPrefixOf_iff_prefix.mp begins
  exact List.isPrefixOf_iff_prefix.mpr ⟨rest ++ more, by simp⟩

theorem Text.exists_of_brace {t : Text} (begins : t.startsWith "\x7b" = true) :
    ∃ rest, t = '\x7b'.toNat :: rest := by
  obtain ⟨rest, same⟩ := List.isPrefixOf_iff_prefix.mp begins
  exact ⟨rest, same.symm⟩

theorem Text.startsWith_of_append {front back : Text} {c : Nat}
    (begins : (front ++ c :: back).startsWith "\x7b" = true) (other : c ≠ '\x7b'.toNat) :
    front.startsWith "\x7b" = true := by
  cases front with
  | nil =>
    have same : 0x7B = c := by simpa [Text.startsWith, Text.ofString] using begins
    exact absurd same.symm other
  | cons d rest => simpa [Text.startsWith, Text.ofString] using begins

namespace Json
namespace Reader

def opened : Reader := { position := 1, stack := [.object [] []], phase := .name true }

theorem step_brace : step {} '\x7b'.toNat = .ok opened := rfl

theorem nested_opened : opened.Nested := ⟨rfl, .inl rfl⟩

theorem foldlM_append_ok {front back : Text} {r last : Reader}
    (taken : (front ++ back).foldlM step r = .ok last) :
    ∃ middle, front.foldlM step r = .ok middle ∧ back.foldlM step middle = .ok last := by
  rwa [List.foldlM_append, bind_eq_ok] at taken

theorem foldlM_cons_ok {c : Nat} {rest : Text} {r last : Reader}
    (taken : (c :: rest).foldlM step r = .ok last) :
    ∃ next, r.step c = .ok next ∧ rest.foldlM step next = .ok last := by
  rwa [List.foldlM_cons, bind_eq_ok] at taken

theorem nested_foldlM {t : Text} {r last : Reader} (nested : r.Nested)
    (taken : t.foldlM step r = .ok last) : last.Nested := by
  induction t generalizing r with
  | nil =>
    cases taken
    exact nested
  | cons c rest ih =>
    obtain ⟨next, first, others⟩ := foldlM_cons_ok taken
    exact ih (step_follows nested first).nested others

/-- What the scanner knows after a stretch that the reader accepts. -/
theorem feed_nesting {t : Text} {r last : Reader} (nested : r.Nested)
    (taken : t.foldlM step r = .ok last) : r.nesting.feed t = last.nesting := by
  induction t generalizing r with
  | nil =>
    cases taken
    rfl
  | cons c rest ih =>
    obtain ⟨next, first, others⟩ := foldlM_cons_ok taken
    have follows := step_follows nested first
    rw [Scanner.feed, follows.closes, if_neg (by simp), ← follows.nesting]
    exact ih follows.nested others

theorem foldlM_brace {t : Text} {last : Reader} (begins : t.startsWith "\x7b" = true)
    (taken : t.foldlM step {} = .ok last) : last.Nested ∧ Scanner.feed {} t = last.nesting := by
  obtain ⟨rest, rfl⟩ := Text.exists_of_brace begins
  obtain ⟨next, first, others⟩ := foldlM_cons_ok taken
  rw [step_brace] at first
  cases first
  exact ⟨nested_foldlM nested_opened others, feed_nesting nested_opened others⟩

theorem depth_pos {r : Reader} (nested : r.Nested) (present : r.outline ≠ []) :
    0 < r.nesting.depth := by
  have root := nested.root.resolve_right fun ended => present ended.1
  have member : true ∈ r.outline := List.mem_of_getLast? root
  have count := List.count_pos_iff.mpr member
  simp only [nesting]
  omega

theorem spaces_of_ended {t : Text} {r last : Reader} (stack : r.stack = [])
    (phase : r.phase = .afterValue) (taken : t.foldlM step r = .ok last) :
    ∀ c ∈ t, isSpace c = true := by
  induction t generalizing r with
  | nil => simp
  | cons c rest ih =>
    obtain ⟨next, first, others⟩ := foldlM_cons_ok taken
    simp only [step, phase, stepAfterValue, stack] at first
    split at first
    · rename_i space
      cases first
      intro d member
      rcases List.mem_cons.mp member with rfl | later
      · exact space
      · exact ih (r := r.advance .afterValue) stack rfl others d later
    · cases first

theorem finish_nested {r : Reader} {v : Value} (nested : r.Nested) (read : r.finish = .ok v) :
    r.outline = [] ∧ r.phase = .afterValue ∧ ∃ members, v = .object members := by
  rcases nested.root with root | ⟨empty, ended, members, result⟩
  · exfalso
    have present : r.stack.isEmpty = false := by
      cases stack : r.stack with
      | nil => simp [outline, stack] at root
      | cons frame rest => rfl
    have completed : ∀ v, (r.complete v).stack.isEmpty = false := by
      intro v
      have same := outline_complete r v
      cases stack : (r.complete v).stack with
      | nil =>
        simp only [outline, stack, List.map_nil] at same
        simp [outline, ← same] at root
      | cons frame rest => rfl
    unfold finish at read
    dsimp only at read
    split at read
    · cases read
    · cases read
    · cases read
    · rw [if_neg (by simp [present])] at read
      cases read
    · split at read <;> cases read
    · split at read
      · cases read
      · cases read
      · cases read
      · cases read
      · rw [if_neg (by simp [completed])] at read
        cases read
    · cases read
  · refine ⟨empty, ended, members, ?_⟩
    have stack : r.stack = [] := by simpa [outline] using empty
    simp only [finish, ended, stack, List.isEmpty_nil, if_true, Except.ok.injEq] at read
    rw [← read, result]

/-- A code point that no token is made of: neither a space nor visible ASCII. -/
structure Foreign (c : Nat) : Prop where
  space : isSpace c = false
  visible : ∀ k, 0x20 ≤ k → k < 0x80 → ¬c = k

private theorem range_foreign {c : Nat} (foreign : Foreign c) (low high : Nat) (lower : 0x20 ≤ low)
    (upper : high < 0x80) : (decide (low ≤ c) && decide (c ≤ high)) = false := by
  simp only [Bool.and_eq_false_iff, decide_eq_false_iff_not]
  by_contra both
  exact foreign.visible c (by omega) (by omega) rfl

private theorem stepAfterValue_foreign {c : Nat} (foreign : Foreign c) (r : Reader) :
    ∃ e, r.stepAfterValue c = .error e := by
  unfold stepAfterValue
  rw [if_neg (by simp [foreign.space])]
  split <;> simp [foreign.visible]

private theorem extend?_foreign {c : Nat} (foreign : Foreign c) (n : NumberState) (position : Nat) :
    n.extend? position c = none := by
  cases mode : n.mode <;>
    simp [NumberState.extend?, mode, foreign.visible, range_foreign foreign]

private theorem stepNumber_foreign {c : Nat} (foreign : Foreign c) (r : Reader) (n : NumberState) :
    ∃ e, r.stepNumber n c = .error e := by
  simp only [stepNumber, extend?_foreign foreign]
  split
  · simp [foreign.visible]
  · exact ⟨_, rfl⟩
  · exact ⟨_, rfl⟩
  · exact ⟨_, rfl⟩
  · exact stepAfterValue_foreign foreign _

private theorem stepLiteral_foreign {c : Nat} (foreign : Foreign c) (r : Reader) (start : Nat)
    (rest : Text) (v : Value) (letters : ∀ d ∈ rest, 0x41 ≤ d ∧ d ≤ 0x7A) :
    ∃ e, r.stepLiteral start rest v c = .error e := by
  have absent : ∀ d ∈ rest, ¬c = d := by
    intro d member
    have bounds := letters d member
    exact foreign.visible d (by omega) (by omega)
  unfold stepLiteral
  split
  · simp [absent]
  · simp [absent]
  · exact ⟨_, rfl⟩

private theorem stepString_foreign {c : Nat} (foreign : Foreign c) {r next : Reader}
    {s : StringState} (taken : r.stepString s c = .ok next) :
    0x80 ≤ c ∧ ∃ unicode, s.mode = .plain unicode := by
  cases mode : s.mode with
  | plain unicode =>
    refine ⟨?_, unicode, rfl⟩
    by_contra low
    have control : c < 0x20 := by
      by_contra high
      exact foreign.visible c (by omega) (by omega) rfl
    simp [stepString, mode, foreign.visible, control] at taken
  | backslash joins =>
    have letter : escaped? c = none := by simp [escaped?, foreign.visible]
    simp [stepString, mode, foreign.visible, letter] at taken
  | hex joins place count value =>
    have digit : hexValue? c = none := by
      rw [hexValue?, range_foreign foreign _ _ (by decide) (by decide),
        range_foreign foreign _ _ (by decide) (by decide),
        range_foreign foreign _ _ (by decide) (by decide)]
      rfl
    simp [stepString, mode, digit] at taken

/-- What no token is made of stands raw in a string, and then it is no control character. -/
theorem step_foreign {c : Nat} (foreign : Foreign c) {r next : Reader} (nested : r.Nested)
    (taken : r.step c = .ok next) :
    0x80 ≤ c ∧ ∃ s unicode, r.phase = .string s ∧ s.mode = .plain unicode := by
  have refused : (∃ e, r.step c = .error e) → False := by
    rintro ⟨e, error⟩
    rw [error] at taken
    cases taken
  cases phase : r.phase with
  | value canClose =>
    simp [step, phase, stepValue, foreign.space, foreign.visible, range_foreign foreign] at taken
  | name canClose => simp [step, phase, stepName, foreign.space, foreign.visible] at taken
  | colon => simp [step, phase, stepColon, foreign.space, foreign.visible] at taken
  | afterValue =>
    have error := stepAfterValue_foreign foreign r
    exact (refused (by simpa only [step, phase] using error)).elim
  | string s =>
    simp only [step, phase] at taken
    obtain ⟨high, unicode, mode⟩ := stepString_foreign foreign taken
    exact ⟨high, s, unicode, rfl, mode⟩
  | number n =>
    have error := stepNumber_foreign foreign r n
    exact (refused (by simpa only [step, phase] using error)).elim
  | literal start rest v =>
    have letters := nested.fits
    rw [phase] at letters
    have error := stepLiteral_foreign foreign r start rest v letters
    exact (refused (by simpa only [step, phase] using error)).elim

theorem step_feed_error {r : Reader} {s : StringState} (phase : r.phase = .string s) :
    ∃ e, r.step 0x0A = .error e := by
  cases mode : s.mode <;> simp [step, phase, stepString, mode, escaped?, hexValue?]

theorem nesting_feed {r next : Reader} (nested : r.Nested) (taken : r.step 0x0A = .ok next) :
    next.nesting = r.nesting := by
  have outside : r.phase.inString = false := by
    by_contra within
    cases phase : r.phase <;> simp [phase, Phase.inString] at within
    obtain ⟨e, error⟩ := step_feed_error phase
    rw [error] at taken
    cases taken
  rw [(step_follows nested taken).nesting]
  simp [Scanner.step, nesting, outside]

end Reader

open Reader

theorem read_brace {t : Text} (begins : t.startsWith "\x7b" = true) :
    read t = t.foldlM step {} >>= finish := by
  obtain ⟨rest, rfl⟩ := Text.exists_of_brace begins
  rfl

/-- A text that begins with a brace denotes nothing but an object, at whose end nothing is open. -/
theorem read_object {t : Text} {v : Value} (begins : t.startsWith "\x7b" = true)
    (accepted : read t = .ok v) :
    ∃ last members, t.foldlM step {} = .ok last ∧ last.Nested ∧ last.outline = [] ∧
      last.phase = .afterValue ∧ v = .object members := by
  rw [read_brace begins] at accepted
  cases taken : t.foldlM step {} with
  | error e => simp [taken, bind, Except.bind] at accepted
  | ok last =>
    have nested := (foldlM_brace begins taken).1
    have finished : last.finish = .ok v := by simpa [taken, bind, Except.bind] using accepted
    obtain ⟨empty, ended, members, same⟩ := finish_nested nested finished
    exact ⟨last, members, rfl, nested, empty, ended, same⟩

/-- At the end of an object's text the scanner is where it began. -/
theorem feed_object {t : Text} {v : Value} (begins : t.startsWith "\x7b" = true)
    (accepted : read t = .ok v) : Scanner.feed {} t = {} := by
  obtain ⟨last, members, taken, -, empty, ended, -⟩ := read_object begins accepted
  rw [(foldlM_brace begins taken).2]
  simp [nesting, empty, ended, Phase.inString, Phase.escaped]

/-- Before the brace at the end of an object's text the reader is inside the object. -/
theorem open_before_end {front back : Text} {middle last : Reader}
    (begins : front.startsWith "\x7b" = true) (before : front.foldlM step {} = .ok middle)
    (after : back.foldlM step middle = .ok last) (final : back.getLast? = some '\x7d'.toNat) :
    0 < middle.nesting.depth := by
  have nested := (foldlM_brace begins before).1
  refine depth_pos nested fun empty => ?_
  have ended := (nested.root.resolve_left (by simp [empty])).2.1
  have stack : middle.stack = [] := by simpa [outline] using empty
  have space := spaces_of_ended stack ended after _ (List.mem_of_getLast? final)
  simp [isSpace] at space

theorem string_before_foreign {front back : Text} {c : Nat} {v : Value}
    (begins : front.startsWith "\x7b" = true) (accepted : read (front ++ c :: back) = .ok v)
    (foreign : Foreign c) :
    0x80 ≤ c ∧ ∃ q s, front.foldlM step {} = .ok q ∧ q.phase = .string s := by
  obtain ⟨last, members, taken, -⟩ := read_object (Text.startsWith_append begins _) accepted
  obtain ⟨q, before, others⟩ := foldlM_append_ok taken
  obtain ⟨next, here, -⟩ := foldlM_cons_ok others
  obtain ⟨high, s, unicode, phase, -⟩ := step_foreign foreign (foldlM_brace begins before).1 here
  exact ⟨high, q, s, before, phase⟩

theorem open_in_string {front : Text} {q : Reader} {s : StringState}
    (begins : front.startsWith "\x7b" = true) (taken : front.foldlM step {} = .ok q)
    (phase : q.phase = .string s) : 0 < q.nesting.depth := by
  have nested := (foldlM_brace begins taken).1
  refine depth_pos nested fun empty => ?_
  have ended := (nested.root.resolve_left (by simp [empty])).2.1
  rw [phase] at ended
  cases ended

theorem read_feed_in_string {front : Text} {q : Reader} {s : StringState}
    (begins : front.startsWith "\x7b" = true) (taken : front.foldlM step {} = .ok q)
    (phase : q.phase = .string s) (more : Text) : ∃ e, read (front ++ 0x0A :: more) = .error e := by
  cases accepted : read (front ++ 0x0A :: more) with
  | error e => exact ⟨e, rfl⟩
  | ok v =>
    obtain ⟨last, members, through, -⟩ := read_object (Text.startsWith_append begins _) accepted
    obtain ⟨middle, before, others⟩ := foldlM_append_ok through
    obtain ⟨next, feed, -⟩ := foldlM_cons_ok others
    obtain rfl : q = middle := Except.ok.inj (taken.symm.trans before)
    obtain ⟨e, error⟩ := step_feed_error phase
    rw [error] at feed
    cases feed

end Json
end LintCorpus
