import LintCorpus.Text.Lines

/-!
The lines of a text read in parts. A text may be cut after a line feed, and a stretch without
terminators is one line whatever terminator follows it.
-/
namespace LintCorpus.Text

namespace LineReader

def after (r : LineReader) (earlier : List Text) : LineReader :=
  { r with complete := r.complete ++ earlier }

private theorem step_after (r : LineReader) (earlier : List Text) (c : Nat) :
    (r.after earlier).step c = (r.step c).after earlier := by
  unfold step after
  dsimp only
  split
  · rfl
  · split <;> rfl

private theorem foldl_after (t : Text) (r : LineReader) (earlier : List Text) :
    t.foldl step (r.after earlier) = (t.foldl step r).after earlier := by
  induction t generalizing r with
  | nil => rfl
  | cons c rest ih => rw [List.foldl_cons, List.foldl_cons, step_after, ih]

private theorem finish_after (r : LineReader) (earlier : List Text) :
    (r.after earlier).finish = earlier.reverse ++ r.finish := by
  unfold finish after
  dsimp only
  split <;> simp

/-- No line is open right after a carriage return. -/
def Tidy (r : LineReader) : Prop := r.afterReturn = true → r.current = []

private theorem step_tidy (r : LineReader) (c : Nat) : (r.step c).Tidy := by
  unfold step Tidy
  split
  · intro returned
    cases returned
  · split
    · intro _
      rfl
    · intro returned
      cases returned

private theorem foldl_tidy (t : Text) (r : LineReader) (tidy : r.Tidy) : (t.foldl step r).Tidy := by
  induction t generalizing r with
  | nil => exact tidy
  | cons c rest ih => exact ih _ (step_tidy r c)

private theorem step_feed (r : LineReader) (tidy : r.Tidy) :
    r.step 0x0A = { complete := (r.step 0x0A).complete } := by
  obtain ⟨complete, current, afterReturn⟩ := r
  cases afterReturn with
  | false => rfl
  | true =>
    have empty : current = [] := tidy rfl
    subst empty
    rfl

private theorem foldl_plain (line : Text) (plain : ∀ c ∈ line, endsLine c = false)
    (complete : List Text) (current : Text) :
    line.foldl step { complete, current } = { complete, current := line.reverse ++ current } := by
  induction line generalizing current with
  | nil => rfl
  | cons c rest ih =>
    have other : endsLine c = false := plain c (by simp)
    have next : step { complete, current } c = { complete, current := c :: current } := by
      simp [step, other]
    rw [List.foldl_cons, next, ih fun d member => plain d (by simp [member])]
    simp

/-- A reader that has read a text: complete lines are parts of it between terminators, no more than
there are terminators, and the open line stands at its end. -/
structure Within (r : LineReader) (t : Text) : Prop where
  complete : ∀ line ∈ r.complete, line <:+: t ∧ ∀ c ∈ line, endsLine c = false
  current : r.current.reverse <:+ t ∧ ∀ c ∈ r.current, endsLine c = false
  count : r.complete.length ≤ t.countP endsLine

private theorem step_within {r : LineReader} {t : Text} (within : r.Within t) (tidy : r.Tidy)
    (c : Nat) : (r.step c).Within (t ++ [c]) := by
  obtain ⟨complete, ⟨ending, plain⟩, count⟩ := within
  have earlier : ∀ line ∈ r.complete, line <:+: t ++ [c] ∧ ∀ c ∈ line, endsLine c = false :=
    fun line member => (complete line member).imp_left List.infix_append_of_infix_left
  have more : r.complete.length ≤ (t ++ [c]).countP endsLine :=
    Nat.le_trans count (List.sublist_append_left t [c]).countP_le
  unfold step
  split
  · next second =>
    have empty : r.current = [] := tidy (Bool.and_eq_true_iff.mp second).1
    exact ⟨earlier, ⟨by simp [empty], plain⟩, more⟩
  · split
    · next ends =>
      have closed : r.current.reverse <:+: t ++ [c] := List.infix_append_of_infix_left ending.isInfix
      have free : ∀ d ∈ r.current.reverse, endsLine d = false :=
        fun d member => plain d (List.mem_reverse.mp member)
      exact ⟨List.forall_mem_cons.mpr ⟨⟨closed, free⟩, earlier⟩, ⟨List.nil_suffix, nofun⟩,
        by simpa [ends] using count⟩
    · next other =>
      obtain ⟨front, rfl⟩ := ending
      exact ⟨earlier, ⟨⟨front, by simp⟩, List.forall_mem_cons.mpr ⟨by simpa using other, plain⟩⟩, more⟩

private theorem foldl_within {r : LineReader} {t : Text} (within : r.Within t) (tidy : r.Tidy)
    (rest : Text) : (rest.foldl step r).Within (t ++ rest) := by
  induction rest generalizing r t with
  | nil => simpa using within
  | cons c rest ih =>
    rw [List.append_cons]
    exact ih (step_within within tidy c) (step_tidy r c)

private theorem within_lines (t : Text) : (t.foldl step {}).Within t := by
  have start : Within {} [] := ⟨nofun, ⟨List.nil_suffix, nofun⟩, Nat.le_refl 0⟩
  exact foldl_within start (fun returned => by cases returned) t

end LineReader

open LineReader

/-- A line is a part of the text between terminators. -/
theorem lines_spec {t line : Text} (member : line ∈ lines t) :
    line <:+: t ∧ ∀ c ∈ line, endsLine c = false := by
  obtain ⟨complete, ⟨ending, plain⟩, -⟩ := within_lines t
  rw [lines, finish, List.mem_reverse] at member
  split at member
  · exact complete line member
  · rcases List.mem_cons.mp member with rfl | earlier
    · exact ⟨ending.isInfix, fun c inside => plain c (List.mem_reverse.mp inside)⟩
    · exact complete line earlier

theorem lines_subset {t line : Text} (member : line ∈ lines t) : line ⊆ t :=
  (lines_spec member).1.subset

/-- There is at most one line more than there are terminators. -/
theorem length_lines_le (t : Text) : (lines t).length ≤ t.countP endsLine + 1 := by
  have count := (within_lines t).count
  rw [lines, finish, List.length_reverse]
  split
  · exact Nat.le_succ_of_le count
  · exact Nat.succ_le_succ count

@[simp] theorem lines_nil : lines [] = [] := rfl

private theorem lines_of_foldl (front back : Text) (complete : List Text)
    (closed : front.foldl step {} = { complete }) :
    lines (front ++ back) = complete.reverse ++ lines back := by
  have start : front.foldl step {} = LineReader.after {} complete := by
    rw [closed]
    rfl
  rw [lines, List.foldl_append, start, foldl_after, finish_after]
  rfl

/-- A text may be cut after a line feed. -/
theorem lines_append_feed (front back : Text) :
    lines (front ++ 0x0A :: back) = lines (front ++ [0x0A]) ++ lines back := by
  -- After a line feed no line is open, also when a carriage return stands before it.
  have closed : (front ++ [0x0A]).foldl step {} =
      { complete := ((front ++ [0x0A]).foldl step {}).complete } := by
    simp only [List.foldl_append, List.foldl_cons, List.foldl_nil]
    exact step_feed _ (foldl_tidy front {} fun returned => by cases returned)
  have cut : front ++ 0x0A :: back = (front ++ [0x0A]) ++ back := by simp
  have whole := lines_of_foldl (front ++ [0x0A]) [] _ closed
  rw [cut, lines_of_foldl _ _ _ closed]
  simp only [List.append_nil, lines_nil] at whole
  rw [whole]

theorem lines_break (line : Text) (plain : ∀ c ∈ line, endsLine c = false) (c : Nat)
    (ends : endsLine c = true) (other : c ≠ 0x0D) (rest : Text) :
    lines (line ++ c :: rest) = line :: lines rest := by
  have closed : (line ++ [c]).foldl step {} = { complete := [line] } := by
    rw [List.foldl_append, foldl_plain line plain]
    simp [step, ends, other]
  have cut : line ++ c :: rest = (line ++ [c]) ++ rest := by simp
  rw [cut, lines_of_foldl _ _ _ closed]
  rfl

theorem lines_first (line : Text) (plain : ∀ c ∈ line, endsLine c = false) (c : Nat)
    (ends : endsLine c = true) (rest : Text) : ∃ others, lines (line ++ c :: rest) = line :: others := by
  have closed : (line ++ [c]).foldl step {} = LineReader.after { afterReturn := c == 0x0D } [line] := by
    rw [List.foldl_append, foldl_plain line plain]
    simp [step, ends, LineReader.after]
  have cut : line ++ c :: rest = (line ++ [c]) ++ rest := by simp
  refine ⟨(rest.foldl step { afterReturn := c == 0x0D }).finish, ?_⟩
  rw [cut, lines, List.foldl_append, closed, foldl_after, finish_after]
  rfl

theorem lines_plain (line : Text) (plain : ∀ c ∈ line, endsLine c = false) (present : line ≠ []) :
    lines line = [line] := by
  rw [lines, foldl_plain line plain]
  simp [finish, present]

theorem exists_break (t : Text) : (∀ c ∈ t, endsLine c = false) ∨
    ∃ line c rest, t = line ++ c :: rest ∧ (∀ d ∈ line, endsLine d = false) ∧ endsLine c = true := by
  have cut : t.takeWhile (fun c => !endsLine c) ++ t.dropWhile (fun c => !endsLine c) = t :=
    List.takeWhile_append_dropWhile
  have plain : ∀ c ∈ t.takeWhile (fun c => !endsLine c), endsLine c = false := by
    intro c member
    simpa using List.all_eq_true.mp List.all_takeWhile c member
  cases rest : t.dropWhile (fun c => !endsLine c) with
  | nil =>
    rw [rest, List.append_nil] at cut
    exact .inl (cut ▸ plain)
  | cons c more =>
    have ends : endsLine c = true := by
      have stopped := List.head?_dropWhile_not (fun c => !endsLine c) t
      simpa [rest] using stopped
    exact .inr ⟨_, c, more, by rw [← rest, cut], plain, ends⟩

theorem lines_append_final_feed (t : Text) :
    lines (t ++ [0x0A]) = lines t ∨ lines (t ++ [0x0A]) = lines t ++ [[]] := by
  have tidy := foldl_tidy t {} fun returned => by cases returned
  simp only [lines, List.foldl_append, List.foldl_cons, List.foldl_nil]
  generalize t.foldl step {} = r at tidy
  obtain ⟨complete, current, afterReturn⟩ := r
  cases afterReturn with
  | true =>
    have empty : current = [] := tidy rfl
    subst empty
    exact .inl rfl
  | false =>
    cases current with
    | nil => exact .inr (by simp [step, finish, endsLine])
    | cons c rest => exact .inl (by simp [step, finish, endsLine])

/-- One code point of a text whose line ends are made line feeds. -/
private def unify (read : Text × Bool) (c : Nat) : Text × Bool :=
  if c = 0x0A && read.2 then (read.1, false)
  else if c = 0x0D then (0x0A :: read.1, true)
  else (c :: read.1, false)

/-- A reader of the text and one of what is made of it so far are at the same line. -/
private theorem step_unify {out : Text} {r : LineReader}
    (alike : out.reverse.foldl step {} = { r with afterReturn := false }) (c : Nat) :
    (unify (out, r.afterReturn) c).2 = (r.step c).afterReturn ∧
      (unify (out, r.afterReturn) c).1.reverse.foldl step {} =
        { r.step c with afterReturn := false } := by
  have next (d : Nat) : (d :: out).reverse.foldl step {} =
      step { r with afterReturn := false } d := by
    rw [List.reverse_cons, List.foldl_append, alike]
    rfl
  by_cases second : (c == 0x0A && r.afterReturn) = true
  · -- The line feed belongs to the carriage return before it.
    obtain ⟨feed, returned⟩ := Bool.and_eq_true_iff.mp second
    have same : unify (out, r.afterReturn) c = (out, false) := by simp_all [unify]
    rw [same, alike, step, if_pos (by simp_all)]
    exact ⟨rfl, rfl⟩
  · have first : ¬(r.afterReturn && c == 0x0A) = true := by rwa [Bool.and_comm]
    by_cases carriage : c = 0x0D
    · subst carriage
      have same : unify (out, r.afterReturn) 0x0D = (0x0A :: out, true) := by simp [unify]
      rw [same, next, step, if_neg first]
      exact ⟨rfl, rfl⟩
    · have same : unify (out, r.afterReturn) c = (c :: out, false) := by
        have unread : ¬(c = 0x0A ∧ r.afterReturn = true) := by simpa using second
        simp [unify, unread, carriage]
      have other : (c == 0x0D) = false := beq_eq_false_iff_ne.mpr carriage
      rw [same, next]
      simp only [step, if_neg first, other, Bool.false_and, Bool.false_eq_true, if_false]
      cases endsLine c <;> exact ⟨rfl, rfl⟩

/-- Making all line ends line feeds does not change the lines. -/
theorem lines_normalizeNewlines (t : Text) : lines (normalizeNewlines t) = lines t := by
  have run (t out : Text) (r : LineReader)
      (alike : out.reverse.foldl step {} = { r with afterReturn := false }) :
      lines (t.foldl unify (out, r.afterReturn)).1.reverse = (t.foldl step r).finish := by
    induction t generalizing out r with
    | nil =>
      rw [lines, List.foldl_nil, alike]
      rfl
    | cons c rest ih =>
      obtain ⟨returned, later⟩ := step_unify alike c
      rw [List.foldl_cons, List.foldl_cons, ← ih _ (r.step c) later, ← returned]
  exact run t [] {} rfl

theorem join_cons (separator first : Text) (rest : List Text) (more : rest ≠ []) :
    join separator (first :: rest) = first ++ separator ++ join separator rest :=
  List.intercalate_cons_of_ne_nil more

theorem join_singleton (separator only : Text) : join separator [only] = only :=
  List.intercalate_singleton

theorem join_head (separator first : Text) (rest : List Text) :
    ∃ more, join separator (first :: rest) = first ++ more := by
  by_cases more : rest = []
  · exact ⟨[], by rw [more, join_singleton, List.append_nil]⟩
  · exact ⟨_, by rw [join_cons _ _ _ more, List.append_assoc]⟩

theorem join_append (separator : Text) (front back : List Text) (first : front ≠ [])
    (second : back ≠ []) :
    join separator (front ++ back) = join separator front ++ separator ++ join separator back := by
  induction front with
  | nil => cases first rfl
  | cons part rest ih =>
    by_cases more : rest = []
    · rw [more, join_singleton, List.singleton_append, join_cons _ _ _ second]
    · rw [List.cons_append, join_cons _ _ _ (by simp [more]), ih more, join_cons _ _ _ more]
      simp only [List.append_assoc]

theorem mem_join {separator : Text} {parts : List Text} {c : Nat} (member : c ∈ join separator parts) :
    c ∈ separator ∨ ∃ part ∈ parts, c ∈ part := by
  induction parts with
  | nil => cases member
  | cons first rest ih =>
    by_cases more : rest = []
    · rw [more, join_singleton] at member
      exact .inr ⟨first, by simp, member⟩
    · rw [join_cons _ _ _ more, List.mem_append, List.mem_append] at member
      rcases member with (here | between) | later
      · exact .inr ⟨first, by simp, here⟩
      · exact .inl between
      · exact (ih later).imp_right fun ⟨part, among, inside⟩ => ⟨part, by simp [among], inside⟩

/-- A text that is cut at line feeds only is its lines with line feeds between them. -/
theorem join_lines (t : Text) (breaks : ∀ c ∈ t, endsLine c = true → c = 0x0A)
    (closed : t.getLast? ≠ some 0x0A) : join [0x0A] t.lines = t := by
  rcases exists_break t with plain | ⟨line, c, rest, same, plain, ends⟩
  · by_cases empty : t = []
    · rw [empty]
      rfl
    · rw [lines_plain t plain empty, join_singleton]
  · obtain rfl : c = 0x0A := breaks c (by simp [same]) ends
    have present : rest ≠ [] := by
      rintro rfl
      exact closed (by simp [same])
    have final : rest.getLast? ≠ some 0x0A := by
      rw [same, List.getLast?_append, List.getLast?_cons_of_ne_nil present] at closed
      simpa [List.getLast?_eq_some_getLast present] using closed
    have shorter : rest.length < t.length := by simp [same]; omega
    have others := join_lines rest (fun d member => breaks d (by simp [same, member])) final
    have more : lines rest ≠ [] := by
      intro none
      rw [none] at others
      exact present others.symm
    rw [same, lines_break line plain 0x0A ends (by decide), join_cons _ _ _ more, others,
      List.append_assoc]
    rfl
termination_by t.length

end LintCorpus.Text
