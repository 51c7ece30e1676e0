import LintCorpus.Proofs.Aggregate.Packages
import LintCorpus.Proofs.Report.Table
import LintCorpus.Report.Markdown

/-!
What a report shows. It has bytes exactly if all that it takes from a result has: names of packages,
rules, what it tells of the findings, and the output it quotes.
-/
namespace LintCorpus

open Text

structure Diagnostic.Encodable (d : Diagnostic) : Prop where
  rule : d.rule.Encodable
  message : d.message.Encodable
  file : ∀ file ∈ d.file, Text.Encodable file
  suggestion : ∀ proposal ∈ d.suggestion, Text.Encodable proposal

instance (d : Diagnostic) : Decidable d.Encodable :=
  decidable_of_iff (d.rule.Encodable ∧ d.message.Encodable ∧ (∀ file ∈ d.file, Text.Encodable file) ∧
      ∀ proposal ∈ d.suggestion, Text.Encodable proposal)
    ⟨fun ⟨a, b, c, d⟩ => ⟨a, b, c, d⟩, fun ⟨a, b, c, d⟩ => ⟨a, b, c, d⟩⟩

structure CorpusResult.Encodable (r : CorpusResult) : Prop where
  target : ∀ lint ∈ r.targetLint, Text.Encodable lint
  names : ∀ entry ∈ r.outcomes.entries, entry.1.Encodable
  tails : ∀ entry ∈ r.outcomes.entries, entry.2.status.brokeBuild = true → entry.2.tail.Encodable
  rules : ∀ entry ∈ r.diagnostics.entries, entry.1.Encodable
  packages : ∀ entry ∈ r.diagnostics.entries, ∀ d ∈ entry.2, d.package.Encodable
  findings : ∀ entry ∈ r.outcomes.entries, ∀ d ∈ r.diagnosticsFor entry.1, d.Encodable

theorem Diagnostic.encodable_location (d : Diagnostic) :
    d.location.Encodable ↔ ∀ file ∈ d.file, Text.Encodable file := by
  obtain ⟨_, _, _, _, file, line, column, _, _⟩ := d
  cases file with
  | none => exact iff_of_true (encodable_ofString _) nofun
  | some file =>
    cases line with
    | none => simp [location]
    | some line => cases column <;> simp [location]

namespace Report

theorem encodable_severity (severity : Severity) : severity.name.Encodable := by
  cases severity <;> exact encodable_ofString _

theorem encodable_label (status : Status) : status.label.Encodable := by
  cases status <;> exact encodable_ofString _

theorem encodable_lengthen (t fence : Text) (plain : fence.Encodable) :
    (lengthen t fence).Encodable := by
  fun_induction lengthen t fence with
  | case1 fence _ ih => exact ih ((encodable_append _ _).mpr ⟨plain, encodable_ofString _⟩)
  | case2 => exact plain

theorem encodable_fence (t : Text) : (fence t).Encodable :=
  encodable_lengthen t _ (encodable_ofString _)

theorem encodable_totalLine (total : Int) : (totalLine total).Encodable := by
  simp [totalLine]

theorem encodable_exitLabel (o : Outcome) : (exitLabel o).Encodable := by
  unfold exitLabel
  cases o.returncode with
  | none => exact encodable_ofString _
  | some code => exact encodable_ofInt code

theorem encodable_statusCell (o : Outcome) : (statusCell o).Encodable := by
  unfold statusCell
  split <;> simp [encodable_label]

theorem encodable_countTable (title value : Text) (rows : List (Text × Int)) :
    (∀ line ∈ (countTable title value rows).lines, line.Encodable) ↔
      (title.Encodable ∧ value.Encodable) ∧ ∀ row ∈ rows, row.1.Encodable := by
  have numbers (i : Int) : (Cell.int i).content.Encodable := encodable_ofInt i
  rw [Table.encodable_lines]
  simp only [countTable, List.forall_mem_map, List.forall_mem_cons, List.not_mem_nil,
    IsEmpty.forall_iff, implies_true, and_true, numbers]
  rfl

theorem encodable_packagesTable (outcomes : List (Text × Outcome)) :
    (∀ line ∈ (packagesTable outcomes).lines, line.Encodable) ↔
      ∀ entry ∈ outcomes, entry.1.Encodable := by
  have numbers (i : Int) : (Cell.int i).content.Encodable := encodable_ofInt i
  have status (o : Outcome) : (Cell.text (statusCell o)).content.Encodable := encodable_statusCell o
  have exited (o : Outcome) : (Cell.text (exitLabel o)).content.Encodable := encodable_exitLabel o
  rw [Table.encodable_lines]
  simp only [packagesTable, List.forall_mem_map, List.forall_mem_cons, List.not_mem_nil,
    IsEmpty.forall_iff, implies_true, and_true, numbers, status, exited, encodable_ofString,
    true_and]
  rfl

theorem encodable_heading (title : Text) :
    (∀ line ∈ heading title, line.Encodable) ↔ title.Encodable := by
  simp [heading]

theorem encodable_subheading (title : Text) :
    (∀ line ∈ subheading title, line.Encodable) ↔ title.Encodable := by
  simp [subheading]

theorem encodable_summarySection (r : CorpusResult) :
    (∀ line ∈ summarySection r, line.Encodable) ↔ ∀ lint ∈ r.targetLint, Text.Encodable lint := by
  unfold summarySection
  dsimp only
  rw [List.forall_mem_append, List.forall_mem_append, encodable_heading, encodable_heading,
    encodable_countTable]
  split
  next c rest tested =>
    simp [tested]
  next untested =>
    rcases tested : r.targetLint with _ | _ | ⟨c, rest⟩
    · simp
    · simp
    · exact absurd tested (untested c rest)

theorem encodable_packagesSection (outcomes : List (Text × Outcome)) :
    (∀ line ∈ packagesSection outcomes, line.Encodable) ↔ ∀ entry ∈ outcomes, entry.1.Encodable := by
  rw [packagesSection, List.forall_mem_append, encodable_heading]
  cases outcomes with
  | nil => simp
  | cons entry rest =>
    rw [and_iff_right (encodable_ofString _)]
    exact encodable_packagesTable (entry :: rest)

theorem encodable_warningsSection (r : CorpusResult) :
    (∀ line ∈ warningsSection r, line.Encodable) ↔
      ∀ entry ∈ r.diagnostics.entries, entry.1.Encodable ∧ ∀ d ∈ entry.2, d.package.Encodable := by
  have sorted : ∀ entry, entry ∈ sortedRules r ↔ entry ∈ r.diagnostics.entries :=
    fun _ => List.mem_mergeSort
  have counted (ds : List Diagnostic) : (∀ row ∈ packageCounts ds, row.1.Encodable) ↔
      ∀ d ∈ ds, d.package.Encodable := by
    simp [packageCounts, Text.mem_sort, List.mem_eraseDups]
  rw [warningsSection, List.forall_mem_append, List.forall_mem_append, encodable_heading,
    List.forall_mem_singleton, and_iff_right ⟨encodable_ofString _, encodable_totalLine _⟩,
    List.forall_mem_flatMap]
  simp only [sorted, List.forall_mem_append, encodable_subheading, encodable_append,
    encodable_ofString, true_and, and_true, encodable_countTable, counted]

theorem encodable_findingLines (d : Diagnostic) :
    (∀ line ∈ findingLines d, line.Encodable) ↔ d.Encodable := by
  have line : (diagnosticLine d false).Encodable ↔
      (∀ file ∈ d.file, Text.Encodable file) ∧ d.rule.Encodable ∧ d.message.Encodable := by
    simp [diagnosticLine, d.encodable_location, encodable_severity]
  have proposal : (∀ line ∈ (d.suggestion.map fun (s : Text) =>
      ("  - suggestion: `" ++ s ++ "`" : Text)).toList, line.Encodable) ↔
        ∀ proposal ∈ d.suggestion, Text.Encodable proposal := by
    cases d.suggestion <;> simp
  rw [findingLines, List.forall_mem_cons, line, proposal]
  constructor
  · rintro ⟨⟨file, rule, message⟩, suggestion⟩
    exact ⟨rule, message, file, suggestion⟩
  · rintro ⟨rule, message, file, suggestion⟩
    exact ⟨⟨file, rule, message⟩, suggestion⟩

theorem encodable_diagnosticsSection (r : CorpusResult) (names : List Text) :
    (∀ line ∈ diagnosticsSection r names, line.Encodable) ↔
      ∀ name ∈ names, ∀ d ∈ r.diagnosticsFor name, name.Encodable ∧ d.Encodable := by
  rw [diagnosticsSection, List.forall_mem_cons, and_iff_right (encodable_ofString _),
    List.forall_mem_flatMap]
  refine forall₂_congr fun name _ => ?_
  rcases r.diagnosticsFor name with _ | ⟨d, rest⟩
  · simp
  · rw [List.forall_mem_append, encodable_subheading, encodable_append,
      and_iff_right (encodable_ofString _), List.forall_mem_flatMap]
    simp only [encodable_findingLines]
    constructor
    · rintro ⟨named, shown⟩ e member
      exact ⟨named, shown e member⟩
    · intro each
      exact ⟨(each d List.mem_cons_self).1, fun e member => (each e member).2⟩

theorem encodable_failureLines (name : Text) (o : Outcome) :
    (∀ line ∈ failureLines name o, line.Encodable) ↔ name.Encodable ∧ o.tail.Encodable := by
  unfold failureLines
  cases o.tail with
  | nil => simp [encodable_label, encodable_exitLabel]
  | cons c rest => simp [encodable_label, encodable_exitLabel, encodable_fence]

theorem encodable_failuresSection (outcomes : List (Text × Outcome)) :
    (∀ line ∈ failuresSection outcomes, line.Encodable) ↔
      ∀ entry ∈ outcomes, entry.2.status.brokeBuild = true →
        entry.1.Encodable ∧ entry.2.tail.Encodable := by
  rw [failuresSection, List.forall_mem_append, List.forall_mem_append, encodable_heading,
    List.forall_mem_singleton, and_iff_right ⟨encodable_ofString _, encodable_totalLine _⟩,
    List.forall_mem_flatMap]
  simp only [List.mem_filter, encodable_failureLines, and_imp]

section Named

variable (outcomes : List (Text × Outcome)) (named : ∀ entry ∈ outcomes, entry.1.Encodable)

include named

theorem encodable_unparsedSection : ∀ line ∈ unparsedSection outcomes, line.Encodable := by
  unfold unparsedSection
  dsimp only
  simp only [List.forall_mem_append, encodable_heading, List.forall_mem_singleton,
    List.forall_mem_map, encodable_ofString, encodable_totalLine, true_and]
  constructor
  · split <;> simp
  · intro entry flagged
    have name := named entry (List.mem_filter.mp flagged).1
    split <;> simp [name]

theorem encodable_allowsSection : ∀ line ∈ allowsSection outcomes, line.Encodable := by
  unfold allowsSection
  dsimp only
  simp only [List.forall_mem_append, encodable_heading, List.forall_mem_singleton,
    encodable_ofString, encodable_totalLine, true_and]
  split
  · simp
  · rw [List.forall_mem_cons, encodable_countTable]
    refine ⟨encodable_nil, ⟨encodable_ofString _, encodable_ofString _⟩, fun row member => ?_⟩
    obtain ⟨entry, present, counted⟩ := List.mem_filterMap.mp (List.mem_filter.mp member).1
    obtain ⟨count, -, rfl⟩ := Option.map_eq_some_iff.mp counted
    exact named entry present

end Named

theorem encodable_render (r : CorpusResult) : (render r).Encodable ↔ r.Encodable := by
  have sorted : ∀ entry, entry ∈ sortedOutcomes r ↔ entry ∈ r.outcomes.entries :=
    fun _ => List.mem_mergeSort
  have sections (parts : List (List Text)) : (joinSections parts).Encodable ↔
      ∀ part ∈ parts, ∀ line ∈ part, line.Encodable := by
    rw [joinSections, encodable_append, and_iff_left (encodable_ofString _),
      encodable_join _ (encodable_ofString _), List.forall_mem_map]
    exact forall₂_congr fun part _ => encodable_join _ (encodable_ofString _) part
  rw [render, sections, List.forall_mem_append]
  simp only [List.forall_mem_cons, encodable_summarySection, encodable_packagesSection,
    encodable_warningsSection, encodable_diagnosticsSection, encodable_failuresSection,
    List.forall_mem_map, sorted]
  constructor
  · rintro ⟨⟨target, names, rules, findings, failures, -⟩, -⟩
    exact ⟨target, names, fun entry member broken => (failures entry member broken).2,
      fun entry member => (rules entry member).1, fun entry member => (rules entry member).2,
      fun entry member d listed => (findings entry member d listed).2⟩
  · rintro ⟨target, names, tails, rules, packages, findings⟩
    have named : ∀ entry ∈ sortedOutcomes r, entry.1.Encodable :=
      fun entry member => names entry ((sorted entry).mp member)
    -- The two sections that are left take nothing from the result but names.
    refine ⟨⟨target, names, fun entry member => ⟨rules entry member, packages entry member⟩,
      fun entry member d listed => ⟨names entry member, findings entry member d listed⟩,
      fun entry member broken => ⟨names entry member, tails entry member broken⟩,
      encodable_unparsedSection _ named, nofun⟩, ?_⟩
    split
    · rw [List.forall_mem_singleton]
      exact encodable_allowsSection _ named
    · nofun

end Report

/-- What a report shows of the findings of runs under a target lint has bytes. -/
structure Reportable (target : Option Text) (runs : List PackageRun) : Prop where
  lint : ∀ lint ∈ target, Text.Encodable lint
  findings : ∀ run ∈ runs, ∀ d ∈ run.kept target, d.Encodable

/-- Of all that runs amount to, only findings and the target lint can have no bytes. -/
theorem Merged.Covers.encodable_result {target : Option Text} {m : Merged} {runs : List PackageRun}
    (covers : Covers target m runs) (distinct : (runs.map PackageRun.name).Nodup) (root : Path)
    (named : ∀ run ∈ runs, run.name.Encodable) :
    (m.result target root).Encodable ↔ Reportable target runs := by
  have filed : ∀ entry ∈ (m.result target root).diagnostics.entries, ∀ d ∈ entry.2,
      ∃ run ∈ runs, d ∈ run.kept target := by
    intro entry member d inside
    rw [Merged.result, covers.byRule] at member
    rw [eq_of_mem_fileAll entry.1 member] at inside
    exact List.mem_flatMap.mp (List.mem_filter.mp inside).1
  constructor
  · intro encodable
    refine ⟨encodable.target, fun run present d kept => ?_⟩
    have entry : (run.name, run.outcome (run.kept target) (run.filteredOut target)) ∈
        (m.result target root).outcomes.entries := covers.mem_outcomes.mpr ⟨run, present, rfl⟩
    apply encodable.findings _ entry d
    rw [covers.diagnosticsFor distinct root present, Diagnostic.mem_sort]
    exact kept
  · rintro ⟨lint, findings⟩
    refine { target := lint, names := ?names, tails := ?tails, rules := ?rules,
             packages := ?packages, findings := ?findings }
    case names =>
      intro entry member
      obtain ⟨run, present, rfl⟩ := covers.mem_outcomes.mp member
      exact named run present
    case tails =>
      -- The output of a command was decoded from its bytes, so a part of it can be encoded again.
      intro entry member _
      obtain ⟨run, present, rfl⟩ := covers.mem_outcomes.mp member
      rw [PackageRun.outcome]
      dsimp only
      split
      · exact run.invocation.encodable_tail _ _
      · exact encodable_nil
    case rules =>
      intro entry member
      have key : entry.1 ∈ m.byRule.keys := List.mem_map_of_mem member
      rw [covers.byRule, mem_keys_fileAll] at key
      obtain ⟨d, kept, rule⟩ := key.resolve_left (by simp)
      obtain ⟨run, present, inside⟩ := List.mem_flatMap.mp kept
      rw [← rule]
      exact (findings run present d inside).rule
    case packages =>
      intro entry member d inside
      obtain ⟨run, present, kept⟩ := filed entry member d inside
      rw [PackageRun.package_of_mem_kept kept]
      exact named run present
    case findings =>
      intro entry member d listed
      obtain ⟨run, present, rfl⟩ := covers.mem_outcomes.mp member
      rw [covers.diagnosticsFor distinct root present, Diagnostic.mem_sort] at listed
      exact findings run present d listed

end LintCorpus
