import LintCorpus.Proofs.Report.Alike
import Mathlib.Data.Nat.Find
import Mathlib.Logic.Function.Iterate
import Mathlib.Order.Bounds.Basic

/-!
Fences around quoted output. The loop that lengthens a fence ends at the first run of grave accents
that is longer than all runs in the text, so no part of the text is such a fence, and none of its
lines ends the block of code that the fence begins.
-/
namespace LintCorpus

namespace Text

theorem includes_iff {t part : Text} : t.includes part = true ↔ part <:+: t := by
  induction t with
  | nil => rw [includes, List.isEmpty_iff, List.infix_nil]
  | cons c rest ih =>
    rw [includes, Bool.or_eq_true, List.isPrefixOf_iff_prefix, ih, List.infix_cons_iff]

theorem copies_infix_copies {m n c : Nat} (fewer : m ≤ n) : copies m c <:+: copies n c :=
  List.infix_replicate_iff.mpr ⟨by simpa [copies] using fewer, by simp [copies]⟩

theorem exists_longest (t : Text) (c : Nat) :
    ∃ longest, IsGreatest {n | copies n c <:+: t} longest := by
  classical
  have bound (n : Nat) (inside : copies n c <:+: t) : n ≤ t.length := by
    simpa [copies] using inside.length_le
  refine ⟨Nat.findGreatest (fun n => copies n c <:+: t) t.length, ?_, fun n inside => ?_⟩
  · exact Nat.findGreatest_spec (P := fun n => copies n c <:+: t) t.length.zero_le
      (List.nil_infix : copies 0 c <:+: t)
  · exact Nat.le_findGreatest (bound n inside) inside

/-- The runs in a text are those up to the longest. -/
theorem copies_infix_iff {t : Text} {c longest : Nat}
    (greatest : IsGreatest {n | copies n c <:+: t} longest) (n : Nat) :
    copies n c <:+: t ↔ n ≤ longest :=
  ⟨fun inside => greatest.2 inside, fun fewer => (copies_infix_copies fewer).trans greatest.1⟩

/-- Behind the first of some joined texts comes nothing or a separator. -/
theorem join_begins (separator first : Text) (rest : List Text) :
    ∃ after, join separator (first :: rest) = first ++ after ∧
      (after = [] ∨ ∃ more, after = separator ++ more) := by
  by_cases more : rest = []
  · exact ⟨[], by rw [more, join_singleton, List.append_nil], .inl rfl⟩
  · exact ⟨_, by rw [join_cons _ _ _ more, List.append_assoc], .inr ⟨_, rfl⟩⟩

/-- A line between line feeds is one of the lines of a text. -/
theorem lines_enclosed (front line back : Text) (plain : ∀ c ∈ line, endsLine c = false) :
    lines (front ++ 0x0A :: (line ++ 0x0A :: back)) =
      lines (front ++ [0x0A]) ++ line :: lines back := by
  rw [lines_append_feed, lines_break line plain 0x0A (by decide) (by decide)]

end Text

namespace Report

open Text

section Loop

def widen (fence : Text) : Text := fence ++ "`"

theorem widen_iterate (k n : Nat) : widen^[k] (copies n 0x60) = copies (n + k) 0x60 := by
  induction k with
  | zero => rfl
  | succ k ih =>
    rw [Function.iterate_succ_apply', ih, widen]
    exact List.replicate_succ'.symm

/-- The loop ends. It goes on for some rounds, in all of which the text contains the fence, and
gives the first one that the text does not contain. -/
theorem exists_rounds (t fence : Text) : ∃ rounds, (∀ k < rounds, widen^[k] fence <:+: t) ∧
    ¬ widen^[rounds] fence <:+: t ∧ lengthen t fence = widen^[rounds] fence := by
  fun_induction lengthen t fence with
  | case1 fence inside ih =>
    obtain ⟨rounds, before, stop, result⟩ := ih
    refine ⟨rounds + 1, fun k fewer => ?_, stop, result⟩
    cases k with
    | zero => exact includes_iff.mp inside
    | succ k => exact before k (Nat.lt_of_succ_lt_succ fewer)
  | case2 fence outside => exact ⟨0, nofun, fun inside => outside (includes_iff.mpr inside), rfl⟩

/-- The loop passes every run that the text contains, and no other. -/
theorem fence_eq {t : Text} {longest : Nat}
    (greatest : IsGreatest {n | copies n 0x60 <:+: t} longest) :
    fence t = copies (max 3 (1 + longest)) 0x60 := by
  obtain ⟨rounds, before, stop, result⟩ := exists_rounds t (copies 3 0x60)
  rw [widen_iterate, copies_infix_iff greatest] at stop
  have least : rounds = 0 ∨ 3 + (rounds - 1) ≤ longest := by
    rcases Nat.eq_zero_or_pos rounds with none | some
    · exact .inl none
    · have last := before (rounds - 1) (by omega)
      rw [widen_iterate, copies_infix_iff greatest] at last
      exact .inr last
  have count : 3 + rounds = max 3 (1 + longest) := by omega
  have start : fence t = lengthen t (copies 3 0x60) := rfl
  rw [start, result, widen_iterate, count]

theorem length_fence {t : Text} {longest : Nat}
    (greatest : IsGreatest {n | copies n 0x60 <:+: t} longest) :
    (fence t).length = max 3 (1 + longest) := by
  rw [fence_eq greatest, copies, List.length_replicate]

theorem fence_eq_copies (t : Text) : fence t = copies (fence t).length 0x60 := by
  obtain ⟨longest, greatest⟩ := exists_longest t 0x60
  rw [length_fence greatest]
  exact fence_eq greatest

theorem not_fence_infix (t : Text) : ¬ fence t <:+: t := by
  obtain ⟨longest, greatest⟩ := exists_longest t 0x60
  rw [fence_eq greatest, copies_infix_iff greatest]
  omega

theorem isLeast_fence (t : Text) :
    IsLeast {n | 3 ≤ n ∧ ¬ copies n 0x60 <:+: t} (fence t).length := by
  obtain ⟨longest, greatest⟩ := exists_longest t 0x60
  simp only [length_fence greatest, copies_infix_iff greatest]
  exact ⟨⟨by omega, by omega⟩, fun n ⟨enough, more⟩ => by omega⟩

end Loop

section Block

/-- A line that ends a block of code begun with a fence: at most three spaces, at least as many
accents as the fence has, and nothing but spaces and tabs behind them. -/
def Closes (fence line : Text) : Prop :=
  ∃ indent accents blanks, indent ≤ 3 ∧ fence.length ≤ accents ∧ (∀ c ∈ blanks, c = 0x20 ∨ c = 0x09) ∧
    line = copies indent 0x20 ++ copies accents 0x60 ++ blanks

theorem closes_fence (t : Text) : Closes (fence t) (fence t) := by
  refine ⟨0, _, [], Nat.zero_le 3, Nat.le_refl _, nofun, ?_⟩
  rw [List.append_nil]
  exact fence_eq_copies t

theorem fence_infix_of_closes {t line : Text} (closes : Closes (fence t) line) :
    fence t <:+: line := by
  obtain ⟨indent, accents, blanks, -, enough, -, rfl⟩ := closes
  rw [fence_eq_copies]
  exact (copies_infix_copies enough).trans (List.infix_append _ _ _)

/-- No part of a text ends the block that its fence begins. -/
theorem not_closes_of_infix {t part : Text} (inside : part <:+: t) : ¬ Closes (fence t) part :=
  fun closes => not_fence_infix t ((fence_infix_of_closes closes).trans inside)

theorem plain_fence (t : Text) : ∀ c ∈ fence t, endsLine c = false := by
  rw [fence_eq_copies]
  intro c member
  rw [List.eq_of_mem_replicate member]
  decide

theorem plain_opening (t : Text) : ∀ c ∈ fence t ++ "text", endsLine c = false :=
  List.forall_mem_append.mpr ⟨plain_fence t, by decide⟩

theorem failureLines_of_tail {name : Text} {o : Outcome} (present : o.tail ≠ []) :
    failureLines name o = failureLines name { o with tail := [] } ++
      [[], fence o.tail ++ ofString "text", o.tail, fence o.tail] := by
  rw [failureLines, if_neg (by simpa using present)]
  rfl

theorem failuresSection_quotes {outcomes : List (Text × Outcome)} {entry : Text × Outcome}
    (member : entry ∈ outcomes) (broke : entry.2.status.brokeBuild = true)
    (present : entry.2.tail ≠ []) : ∃ front back, front ≠ [] ∧ failuresSection outcomes =
      front ++ (fence entry.2.tail ++ "text") :: entry.2.tail :: fence entry.2.tail :: back := by
  have failed : entry ∈ outcomes.filter fun entry => entry.2.status.brokeBuild :=
    List.mem_filter.mpr ⟨member, broke⟩
  obtain ⟨earlier, later, split⟩ := List.append_of_mem failed
  refine ⟨heading "## Build failures" ++ [totalLine (earlier ++ entry :: later).length] ++
    (earlier.flatMap fun entry => failureLines entry.1 entry.2) ++
      failureLines entry.1 { entry.2 with tail := [] } ++ [[]],
    later.flatMap fun entry => failureLines entry.1 entry.2, by simp, ?_⟩
  rw [failuresSection]
  dsimp only
  rw [split, List.flatMap_append, List.flatMap_cons, failureLines_of_tail present]
  simp only [List.append_assoc, List.cons_append, List.nil_append]

/-- A text among joined lines stands between line feeds, and so do the lines around it. -/
theorem join_block (front back : List Text) (first : front ≠ []) (opening t closing : Text) :
    ∃ before after, join "\n" (front ++ opening :: t :: closing :: back) =
        before ++ 0x0A :: (opening ++ 0x0A :: (t ++ 0x0A :: (closing ++ after))) ∧
      (after = [] ∨ ∃ more, after = 0x0A :: more) := by
  obtain ⟨after, last, ends⟩ := join_begins "\n" closing back
  have feed : ofString "\n" = [0x0A] := rfl
  refine ⟨join "\n" front, after, ?_, ends⟩
  rw [join_append _ _ _ first (by simp), join_cons _ _ _ (by simp), join_cons _ _ _ (by simp), last,
    feed]
  simp only [List.append_assoc, List.cons_append, List.nil_append]

/-- Where a section between others has a block, the report has the lines of the block. -/
theorem lines_joinSections_block {others more : List (List Text)} (before : others ≠ [])
    (behind : more ≠ []) {front : List Text} (first : front ≠ []) {opening : Text}
    (begins : ∀ c ∈ opening, endsLine c = false) (t : Text) {closing : Text}
    (ends : ∀ c ∈ closing, endsLine c = false) (back : List Text) : ∃ above below,
      lines (joinSections (others ++ (front ++ opening :: t :: closing :: back) :: more)) =
        above ++ opening :: (lines (t ++ [0x0A]) ++ closing :: below) := by
  obtain ⟨start, after, block, goes⟩ := join_block front back first opening t closing
  obtain ⟨rest, feed⟩ : ∃ rest, after ++ (ofString "\n\n" ++ (join "\n\n" (more.map (join "\n")) ++
      ofString "\n")) = 0x0A :: rest := by
    rcases goes with rfl | ⟨others, rfl⟩
    · exact ⟨_, rfl⟩
    · exact ⟨_, rfl⟩
  obtain ⟨start, placed⟩ : ∃ start,
      joinSections (others ++ (front ++ opening :: t :: closing :: back) :: more) =
        start ++ 0x0A :: (opening ++ 0x0A :: (t ++ 0x0A :: (closing ++ 0x0A :: rest))) := by
    refine ⟨join "\n\n" (others.map (join "\n")) ++ (ofString "\n\n" ++ start), ?_⟩
    rw [joinSections_around _ before behind, block, ← feed]
    simp only [List.append_assoc, List.cons_append]
  refine ⟨lines (start ++ [0x0A]), lines rest, ?_⟩
  rw [placed, lines_enclosed _ _ _ begins, lines_enclosed _ _ _ ends]

end Block

/-- The loop for a fence ends at the shortest run of three grave accents or more that the text does
not contain. In a report every tail of a build that broke stands between two such fences, of which
the second ends the block: no line of the tail contains the fence, so none ends it before. -/
theorem fences_enclose :
    (∀ t : Text, ∃ rounds longest, (∀ k < rounds, widen^[k] "```" <:+: t) ∧
      ¬ widen^[rounds] "```" <:+: t ∧ fence t = widen^[rounds] "```" ∧
      IsGreatest {n | copies n 0x60 <:+: t} longest ∧
      fence t = copies (max 3 (1 + longest)) 0x60 ∧
      IsLeast {n | 3 ≤ n ∧ ¬ copies n 0x60 <:+: t} (fence t).length) ∧
    ∀ (r : CorpusResult) (name : Text) (o : Outcome), (name, o) ∈ r.outcomes.entries →
      o.status.brokeBuild = true → o.tail ≠ [] →
        [fence o.tail ++ ofString "text", o.tail, fence o.tail] <:+:
          failuresSection (sortedOutcomes r) ∧
        (∀ line ∈ o.tail.lines, ¬ fence o.tail <:+: line) ∧
        ∃ above inside below, (render r).lines =
            above ++ (fence o.tail ++ "text") :: (inside ++ fence o.tail :: below) ∧
          (inside = o.tail.lines ∨ inside = o.tail.lines ++ [[]]) ∧
          (∀ line ∈ inside, ¬ Closes (fence o.tail) line) ∧ Closes (fence o.tail) (fence o.tail) := by
  refine ⟨fun t => ?_, fun r name o member broke present => ?_⟩
  · obtain ⟨longest, greatest⟩ := exists_longest t 0x60
    obtain ⟨rounds, before, stop, result⟩ := exists_rounds t "```"
    exact ⟨rounds, longest, before, stop, result, greatest, fence_eq greatest, isLeast_fence t⟩
  · have listed : (name, o) ∈ sortedOutcomes r := List.mem_mergeSort.mpr member
    obtain ⟨front, back, first, quoted⟩ := failuresSection_quotes listed broke present
    obtain ⟨others, more, before, behind, whole⟩ : ∃ others more, others ≠ [] ∧ more ≠ [] ∧
        render r = joinSections (others ++ failuresSection (sortedOutcomes r) :: more) :=
      ⟨[_, _, _, _], _ :: _, List.cons_ne_nil _ _, List.cons_ne_nil _ _, rfl⟩
    obtain ⟨above, below, placed⟩ := lines_joinSections_block before behind first
      (plain_opening o.tail) o.tail (plain_fence o.tail) back
    rw [← quoted, ← whole] at placed
    have part (line : Text) (among : line ∈ o.tail.lines) : line <:+: o.tail := (lines_spec among).1
    have inside := lines_append_final_feed o.tail
    refine ⟨⟨front, back, by rw [quoted]; simp⟩, fun line among within => ?_, above, _, below, placed,
      inside, fun line among => not_closes_of_infix ?_, closes_fence _⟩
    · exact not_fence_infix _ (within.trans (part line among))
    · rcases inside with same | same <;> rw [same] at among
      · exact part line among
      · rcases List.mem_append.mp among with earlier | last
        · exact part line earlier
        · rw [List.mem_singleton.mp last]
          exact List.nil_infix

/-- Output with a line of four accents, which would end a block begun with three. -/
theorem fences_enclose_accents :
    let o : Outcome := { name := "a", status := .crashed, tail := "odd\n````\noutput" }
    let r : CorpusResult := { root := Path.ofText "crates", outcomes := Dict.ofList [("a", o)] }
    Closes "```" "````" ∧ ("````" : Text) ∈ o.tail.lines ∧
      ∃ above inside below, (render r).lines =
          above ++ ofString "`````text" :: (inside ++ ofString "`````" :: below) ∧
        ("````" : Text) ∈ inside ∧ ∀ line ∈ inside, ¬ Closes "`````" line := by
  intro o r
  have quote : fence o.tail = "`````" := by
    rw [fence, lengthen, if_pos (by decide), lengthen, if_pos (by decide), lengthen, if_neg (by decide)]
    rfl
  have listed : ("````" : Text) ∈ o.tail.lines := by decide
  obtain ⟨-, -, above, inside, below, placed, lines, free, -⟩ :=
    fences_enclose.2 r "a" o (by decide) rfl (by decide)
  rw [quote] at placed free
  refine ⟨⟨0, 4, [], by decide, by decide, by decide, rfl⟩, listed, above, inside, below, placed, ?_, free⟩
  rcases lines with same | same <;> rw [same]
  · exact listed
  · exact List.mem_append_left _ listed

end Report
end LintCorpus
