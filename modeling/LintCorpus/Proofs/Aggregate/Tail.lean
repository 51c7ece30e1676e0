import LintCorpus.Proofs.Aggregate.Packages
import LintCorpus.Proofs.Text.Encodable

/-!
The output that is quoted of a run. Cutting it to its last lines and then to its last code points
leaves the longest end of it that keeps to both limits. A result holds no more of any run, and only
of runs that something went wrong with.
-/
namespace LintCorpus

/-- The longest end of a list that keeps to a limit. -/
structure LongestEnd {α : Type} (Fits : List α → Prop) (whole part : List α) : Prop where
  ending : part <:+ whole
  fits : Fits part
  longest : ∀ other, other <:+ whole → Fits other → other.length ≤ part.length

section Ends

variable {α : Type} {Fits Tight : List α → Prop} {whole middle part : List α}

theorem LongestEnd.of_fits (fits : Fits whole) : LongestEnd Fits whole whole :=
  ⟨List.suffix_refl _, fits, fun _ ending _ => ending.length_le⟩

/-- Cutting to one limit and then to another is cutting to both, if every end of what keeps to the
first one keeps to it too. -/
theorem LongestEnd.cut (outer : LongestEnd Fits whole middle)
    (closed : ∀ s t, s <:+ t → Fits t → Fits s) (inner : LongestEnd Tight middle part) :
    LongestEnd (fun t => Tight t ∧ Fits t) whole part where
  ending := inner.ending.trans outer.ending
  fits := ⟨inner.fits, closed _ _ inner.ending outer.fits⟩
  longest other ending both := by
    have short := outer.longest other ending both.2
    exact inner.longest other (List.suffix_of_suffix_length_le ending outer.ending short) both.1

theorem length_takeEnd {count : Int} (positive : 0 < count) (xs : List α) :
    (takeEnd count xs).length = min xs.length count.toNat := by
  rw [takeEnd, if_pos positive, List.length_drop]
  omega

theorem longestEnd_takeEnd {count : Int} (positive : 0 < count) (xs : List α) :
    LongestEnd (fun ys => (ys.length : Int) ≤ count) xs (takeEnd count xs) where
  ending := takeEnd_suffix count xs
  fits := by
    rw [length_takeEnd positive]
    omega
  longest other ending short := by
    have bound := ending.length_le
    rw [length_takeEnd positive]
    omega

end Ends

namespace Text

/-- Joined lines have a line feed less than there are lines. -/
theorem count_join {c : Nat} {parts : List Text} (plain : ∀ part ∈ parts, c ∉ part) :
    (join [c] parts).count c = parts.length - 1 := by
  induction parts with
  | nil => rfl
  | cons first rest ih =>
    obtain ⟨here, later⟩ := List.forall_mem_cons.mp plain
    have none : first.count c = 0 := List.count_eq_zero.mpr here
    by_cases more : rest = []
    · rw [more, join_singleton, none]
      rfl
    · have some : 0 < rest.length := List.length_pos_iff.mpr more
      rw [join_cons _ _ _ more, List.count_append, List.count_append, none, ih later,
        List.count_singleton_self, List.length_cons]
      omega

/-- The last lines are the longest end with a line feed less than they are. -/
theorem longestEnd_join {lines : List Text} (plain : ∀ line ∈ lines, 0x0A ∉ line) {count : Int}
    (positive : 0 < count) : LongestEnd (fun t => (t.count 0x0A : Int) ≤ count - 1)
      (join [0x0A] lines) (join [0x0A] (takeEnd count lines)) := by
  obtain ⟨dropped, split⟩ := takeEnd_suffix count lines
  have size := length_takeEnd positive lines
  generalize takeEnd count lines = kept at split size
  subst split
  have feeds : (join [0x0A] kept).count 0x0A = kept.length - 1 :=
    count_join fun line member => plain line (List.mem_append_right _ member)
  by_cases none : dropped = []
  · rw [none, List.nil_append] at size ⊢
    exact .of_fits (by rw [feeds]; omega)
  · have some : 0 < dropped.length := List.length_pos_iff.mpr none
    have full : (kept.length : Int) = count := by
      rw [List.length_append] at size
      omega
    have present : kept ≠ [] := List.ne_nil_of_length_pos (by omega)
    rw [join_append _ _ _ none present, List.append_assoc]
    refine ⟨(List.suffix_append [0x0A] _).trans (List.suffix_append _ _), by rw [feeds]; omega, ?_⟩
    intro other ending few
    by_contra longer
    -- A longer end has the line feed in front of the lines that are kept.
    have within : [0x0A] ++ join [0x0A] kept <:+ other := by
      refine List.suffix_of_suffix_length_le (List.suffix_append _ _) ending ?_
      rw [List.length_append, List.length_singleton]
      omega
    have many := within.count_le 0x0A
    rw [List.count_append, List.count_singleton_self, feeds] at many
    omega

end Text

namespace Invocation

open Text

variable (i : Invocation) {maxLines maxChars : Int} (someLines : 1 ≤ maxLines)
  (someChars : 1 ≤ maxChars)

include someLines someChars

theorem longestEnd_tail : LongestEnd
    (fun t => (t.length : Int) ≤ maxChars ∧ (t.count 0x0A : Int) ≤ maxLines - 1)
    (join [0x0A] (Utf8.decode i.payload).stripEnd.lines) (i.tail maxLines maxChars) := by
  have plain : ∀ line ∈ (Utf8.decode i.payload).stripEnd.lines, 0x0A ∉ line := by
    intro line member inside
    have free := (lines_spec member).2 0x0A inside
    simp [endsLine] at free
  have outer := longestEnd_join plain someLines
  have closed (s t : Text) (ending : s <:+ t) (few : (t.count 0x0A : Int) ≤ maxLines - 1) :
      (s.count 0x0A : Int) ≤ maxLines - 1 := by
    have fewer := ending.count_le 0x0A
    omega
  refine outer.cut closed ?_
  unfold tail
  dsimp only
  split
  · exact longestEnd_takeEnd someChars _
  · exact .of_fits (by omega)

/-- Only line feeds end lines in what is quoted. -/
theorem eq_feed_of_mem_tail {c : Nat} (member : c ∈ i.tail maxLines maxChars)
    (ends : endsLine c = true) : c = 0x0A := by
  have among := (i.longestEnd_tail someLines someChars).ending.subset member
  rcases mem_join among with feed | ⟨line, present, inside⟩
  · exact List.mem_singleton.mp feed
  · rw [(lines_spec present).2 c inside] at ends
    cases ends

theorem length_lines_tail : ((i.tail maxLines maxChars).lines.length : Int) ≤ maxLines := by
  have few := (i.longestEnd_tail someLines someChars).fits.2
  have count := length_lines_le (i.tail maxLines maxChars)
  have feeds : (i.tail maxLines maxChars).countP endsLine ≤
      (i.tail maxLines maxChars).count 0x0A := by
    refine List.countP_mono_left fun c member ends => ?_
    exact beq_iff_eq.mpr (i.eq_feed_of_mem_tail someLines someChars member ends)
  omega

end Invocation

theorem exists_run_of_mem_outcomes {runs : List PackageRun} {target : Option Text} {root : Path}
    {r : CorpusResult} (made : aggregate runs target root = .ok r) {entry : Text × Outcome}
    (member : entry ∈ r.outcomes.entries) : ∃ run ∈ runs,
      (run.name, run.outcome (run.kept target) (run.filteredOut target)) = entry := by
  by_cases distinct : (runs.map PackageRun.name).Nodup
  · obtain ⟨m, covers, merged⟩ := aggregate_covers runs target root distinct
    obtain rfl : m.result target root = r := Except.ok.inj (merged.symm.trans made)
    exact covers.mem_outcomes.mp member
  · obtain ⟨front, run, back, -, -, -, refused⟩ := aggregate_repeated runs target root distinct
    rw [refused] at made
    cases made

namespace PackageRun

theorem tail_outcome (run : PackageRun) (kept : List Diagnostic) (filteredOut : Int)
    {o : Outcome} (same : run.outcome kept filteredOut = o) :
    o.tail = if o.status.brokeBuild = true ∨ 0 < o.parseIssues then
      run.invocation.tail 20 2000 else [] := by
  subst same
  have skipped : run.parsed.isPartial = true ↔ 0 < (run.parsed.issues.length : Int) := by
    rw [Int.natCast_pos, List.length_pos_iff]
    simp [Parsed.isPartial]
  simp only [outcome, Bool.or_eq_true, skipped]
  rfl

end PackageRun

/-- What is quoted of a run is the longest end of its lines that keeps to both limits. A result
quotes at most twenty lines and two thousand code points of a run, and quotes only runs that could
not be built or whose output could not be decoded throughout. -/
theorem tails_bounded :
    (∀ (i : Invocation) (maxLines maxChars : Int), 1 ≤ maxLines → 1 ≤ maxChars → LongestEnd
      (fun t => (t.length : Int) ≤ maxChars ∧ (t.count 0x0A : Int) ≤ maxLines - 1)
      (Text.join [0x0A] (Utf8.decode
        (if Invocation.isBlankBytes i.stderr then i.stdout else i.stderr)).stripEnd.lines)
      (i.tail maxLines maxChars)) ∧
    ∀ (runs : List PackageRun) (target : Option Text) (root : Path) (r : CorpusResult),
      aggregate runs target root = .ok r → ∀ (name : Text) (o : Outcome),
        (name, o) ∈ r.outcomes.entries →
          o.tail.length ≤ 2000 ∧ o.tail.lines.length ≤ 20 ∧ o.tail.count 0x0A ≤ 19 ∧
          (o.tail ≠ [] → o.status.brokeBuild = true ∨ 0 < o.parseIssues) ∧
          ∃ run ∈ runs, run.name = name ∧ o.parseIssues = run.parsed.issues.length ∧
            o.tail = if o.status.brokeBuild = true ∨ 0 < o.parseIssues then
              run.invocation.tail 20 2000 else [] := by
  refine ⟨fun i maxLines maxChars => i.longestEnd_tail, ?_⟩
  intro runs target root r made name o member
  obtain ⟨run, present, same⟩ := exists_run_of_mem_outcomes made member
  obtain ⟨rfl, outcome⟩ := Prod.mk.inj same
  have quoted := run.tail_outcome _ _ outcome
  have issues : o.parseIssues = run.parsed.issues.length := by rw [← outcome]; rfl
  have bounds : o.tail.length ≤ 2000 ∧ o.tail.lines.length ≤ 20 ∧ o.tail.count 0x0A ≤ 19 := by
    rw [quoted]
    split
    · have someLines : (1 : Int) ≤ 20 := by decide
      have someChars : (1 : Int) ≤ 2000 := by decide
      have limits := (run.invocation.longestEnd_tail someLines someChars).fits
      have few := run.invocation.length_lines_tail someLines someChars
      omega
    · decide
  refine ⟨bounds.1, bounds.2.1, bounds.2.2, fun shown => ?_, run, present, rfl, issues, quoted⟩
  by_contra nothing
  rw [if_neg nothing] at quoted
  exact shown quoted

/-- Error output with line ends of several kinds, cut inside the last line but one. -/
theorem tails_bounded_crashed :
    let stderr := Utf8.encode "one\r\n\ntwo\u2028three \n"
    let run : PackageRun :=
      { package := { name := "a", path := Path.ofText "a" }
        invocation := { package := "a", command := [], returncode := some 1, status := .crashed, stderr }
        parsed := {} }
    LongestEnd (fun t => (t.length : Int) ≤ 7 ∧ (t.count 0x0A : Int) ≤ 2 - 1) "one\n\ntwo\nthree"
        (run.invocation.tail 2 7) ∧ run.invocation.tail 2 7 = "o\nthree" ∧
      ∃ r o, aggregate [run] none (Path.ofText "crates") = .ok r ∧ r.outcomes.find? "a" = some o ∧
        o.tail = "one\n\ntwo\nthree" ∧ o.tail.length ≤ 2000 ∧ o.tail.lines.length ≤ 20 := by
  intro stderr run
  have cut := tails_bounded.1 run.invocation 2 7 (by decide) (by decide)
  have whole : Text.join [0x0A] (Utf8.decode stderr).stripEnd.lines = "one\n\ntwo\nthree" := by
    decide +kernel
  obtain ⟨m, covers, made⟩ := aggregate_covers [run] none (Path.ofText "crates") (by decide)
  have found := covers.find?_outcome (List.mem_singleton_self run)
  obtain ⟨short, few, -⟩ := tails_bounded.2 [run] none (Path.ofText "crates") _ made "a" _
    ((Dict.find?_eq_some _ _).mp found)
  have quoted : (run.outcome (run.kept none) (run.filteredOut none)).tail =
      "one\n\ntwo\nthree" := by
    decide +kernel
  refine ⟨?_, by decide +kernel, _, _, made, found, quoted, short, few⟩
  rwa [← whole]

end LintCorpus
