import LintCorpus.Proofs.Aggregate.Packages
import LintCorpus.Proofs.Text.Lines
import LintCorpus.Report.Markdown

/-!
Results that hold the same in another order. Every section of their reports is the same but the one
that lists the findings, and that one is if it lists the findings of each package alike.
-/
namespace LintCorpus

/-- An outcome without the time it took. -/
def Outcome.untimed (o : Outcome) : Outcome := { o with duration := .zero false }

/-- Two results that have the same target lint, outcomes, rules and findings, apart from all orders
and from the time things took. -/
structure CorpusResult.Alike (r s : CorpusResult) : Prop where
  target : r.targetLint = s.targetLint
  outcomes : ∀ name,
    (r.outcomes.find? name).map Outcome.untimed = (s.outcomes.find? name).map Outcome.untimed
  rules : ∀ rule, rule ∈ r.diagnostics.keys ↔ rule ∈ s.diagnostics.keys
  findings : ∀ d, d ∈ r.allDiagnostics ↔ d ∈ s.allDiagnostics

def CorpusResult.untimed (r : CorpusResult) : Dict Outcome := r.outcomes.mapValues Outcome.untimed

theorem CorpusResult.Valid.find?_rule {r : CorpusResult} (valid : r.Valid) (rule : Text) :
    r.diagnostics.find? rule = if rule ∈ r.diagnostics.keys then
      some (r.allDiagnostics.filter fun d => d.rule == rule) else none := by
  rw [valid.filter_rule]
  split
  · next known =>
    have found : r.diagnostics.find? rule ≠ none := by
      rw [Ne, Dict.find?_eq_none]
      exact not_not.mpr known
    obtain ⟨ds, found⟩ := Option.ne_none_iff_exists'.mp found
    rw [found]
    rfl
  · next absent => exact (Dict.find?_eq_none _ _).mpr absent

namespace CorpusResult.Alike

variable {r s : CorpusResult} (alike : r.Alike s)

include alike

theorem symm : s.Alike r where
  target := alike.target.symm
  outcomes name := (alike.outcomes name).symm
  rules rule := (alike.rules rule).symm
  findings d := (alike.findings d).symm

theorem find?_untimed (name : Text) : r.untimed.find? name = s.untimed.find? name := by
  rw [untimed, untimed, Dict.find?_mapValues, Dict.find?_mapValues]
  exact alike.outcomes name

theorem perm (valid : r.Valid) (sound : s.Valid) : r.allDiagnostics.Perm s.allDiagnostics := by
  rw [List.perm_ext_iff_of_nodup valid.distinct.of_map sound.distinct.of_map]
  exact alike.findings

end CorpusResult.Alike

namespace Report

/-! What is told of outcomes does not tell how long they took. -/

section Untimed

def untimedEntry (entry : Text × Outcome) : Text × Outcome := (entry.1, entry.2.untimed)

theorem sortedOutcomes_untimed (r : CorpusResult) : (sortedOutcomes r).map untimedEntry =
    r.untimed.entries.mergeSort fun a b => Text.le a.1 b.1 :=
  (Dict.sort_mapValues Outcome.untimed r.outcomes).symm

private theorem lines_congr {t u : Table} (headers : t.headers = u.headers)
    (rows : t.rows = u.rows) : t.lines = u.lines := by
  rw [Table.lines, Table.lines, Table.linesBy, Table.linesBy, headers, rows]

variable (outcomes : List (Text × Outcome))

theorem packagesSection_untimed :
    packagesSection (outcomes.map untimedEntry) = packagesSection outcomes := by
  have table : (packagesTable (outcomes.map untimedEntry)).lines =
      (packagesTable outcomes).lines :=
    lines_congr (t := packagesTable _) (u := packagesTable _) rfl List.map_map
  rw [packagesSection, packagesSection, List.isEmpty_map, table]

theorem failuresSection_untimed :
    failuresSection (outcomes.map untimedEntry) = failuresSection outcomes := by
  simp only [failuresSection, List.filter_map, List.length_map, List.flatMap_map]
  rfl

theorem unparsedSection_untimed :
    unparsedSection (outcomes.map untimedEntry) = unparsedSection outcomes := by
  simp only [unparsedSection, List.filter_map, List.length_map, List.isEmpty_map, List.map_map]
  rfl

theorem allowsSection_untimed :
    allowsSection (outcomes.map untimedEntry) = allowsSection outcomes := by
  simp only [allowsSection, List.filterMap_map]
  rfl

end Untimed

def sortedNames (r : CorpusResult) : List Text := (sortedOutcomes r).map Prod.fst

theorem mem_sortedNames (r : CorpusResult) (name : Text) :
    name ∈ sortedNames r ↔ name ∈ r.outcomes.keys :=
  ((List.mergeSort_perm r.outcomes.entries _).map Prod.fst).mem_iff

theorem sortedNames_eq_sort (r : CorpusResult) : sortedNames r = Text.sort r.outcomes.keys := by
  apply List.map_mergeSort
  exact fun _ _ _ _ => rfl

theorem packageCounts_congr {ds es : List Diagnostic} (same : ds.Perm es) :
    packageCounts ds = packageCounts es := by
  have packages := same.map Diagnostic.package
  have names : Text.sort (ds.map Diagnostic.package).eraseDups =
      Text.sort (es.map Diagnostic.package).eraseDups :=
    sortedSet_congr fun _ => packages.mem_iff
  simp only [packageCounts, names, packages.count_eq]

variable {r s : CorpusResult} (alike : r.Alike s)

include alike

theorem summary_congr (valid : r.Valid) (sound : s.Valid) : r.summary = s.summary := by
  have outcomes := (Dict.perm_iff r.untimed s.untimed).mpr alike.find?_untimed
  have statuses : (r.outcomes.values.map Outcome.status).Perm
      (s.outcomes.values.map Outcome.status) := by
    have listed := outcomes.map fun entry => entry.2.status
    simp only [CorpusResult.untimed, Dict.mapValues, List.map_map] at listed
    simp only [Dict.values, List.map_map]
    exact listed
  have findings := (alike.perm valid sound).length_eq
  rw [CorpusResult.allDiagnostics, CorpusResult.allDiagnostics] at findings
  simp only [CorpusResult.summary, statuses.length_eq, statuses.count_eq, findings]

theorem warningsSection_congr (valid : r.Valid) (sound : s.Valid) :
    warningsSection r = warningsSection s := by
  have counts : ∀ rule, (r.diagnostics.mapValues packageCounts).find? rule =
      (s.diagnostics.mapValues packageCounts).find? rule := by
    intro rule
    rw [Dict.find?_mapValues, Dict.find?_mapValues, valid.find?_rule, sound.find?_rule]
    simp only [alike.rules rule]
    split
    · have filed := (alike.perm valid sound).filter fun d => d.rule == rule
      exact congrArg some (packageCounts_congr filed)
    · rfl
  let ruleLines (entry : Text × List (Text × Int)) : List Text :=
    subheading ("### `" ++ entry.1 ++ "`") ++ (countTable "Crate" "Count" entry.2).lines
  have counted : ∀ r : CorpusResult, warningsSection r = heading "## Warnings" ++
      [totalLine r.summary.diagnostics] ++
        ((r.diagnostics.mapValues packageCounts).entries.mergeSort
          fun a b => Text.le a.1 b.1).flatMap ruleLines := by
    intro r
    rw [Dict.sort_mapValues, List.flatMap_map]
    rfl
  rw [counted, counted, summary_congr alike valid sound, Dict.sort_congr counts]

private theorem sortedOutcomes_congr :
    (sortedOutcomes r).map untimedEntry = (sortedOutcomes s).map untimedEntry := by
  rw [sortedOutcomes_untimed, sortedOutcomes_untimed]
  exact Dict.sort_congr alike.find?_untimed

theorem sortedNames_congr : sortedNames r = sortedNames s := by
  have keys := congrArg (List.map Prod.fst) (sortedOutcomes_congr alike)
  rwa [List.map_map, List.map_map] at keys

omit alike in
/-- A section between others stands whole in the report, with a blank line on both sides. -/
theorem joinSections_around {front back : List (List Text)} (middle : List Text)
    (before : front ≠ []) (behind : back ≠ []) :
    joinSections (front ++ middle :: back) =
      Text.join "\n\n" (front.map (Text.join "\n")) ++ ("\n\n" ++ (Text.join "\n" middle ++
        ("\n\n" ++ (Text.join "\n\n" (back.map (Text.join "\n")) ++ "\n")))) := by
  rw [joinSections, List.map_append, List.map_cons, Text.join_append _ _ _ (by simpa) (by simp),
    Text.join_cons _ _ _ (by simpa)]
  simp only [List.append_assoc]

/-- The reports of such results are the same exactly if they list the findings alike. -/
theorem render_eq_iff (valid : r.Valid) (sound : s.Valid) : render r = render s ↔
    Text.join "\n" (diagnosticsSection r (sortedNames r)) =
      Text.join "\n" (diagnosticsSection s (sortedNames r)) := by
  have outcomes := sortedOutcomes_congr alike
  have counted : ((sortedOutcomes r).any fun entry => entry.2.allowCount.isSome) =
      (sortedOutcomes s).any fun entry => entry.2.allowCount.isSome := by
    have any := congrArg (List.any · fun entry => entry.2.allowCount.isSome) outcomes
    rwa [List.any_map, List.any_map] at any
  have summary : summarySection r = summarySection s := by
    rw [summarySection, summarySection, summary_congr alike valid sound, alike.target]
  have packages := congrArg packagesSection outcomes
  have failures := congrArg failuresSection outcomes
  have unparsed := congrArg unparsedSection outcomes
  have allows := congrArg allowsSection outcomes
  rw [packagesSection_untimed, packagesSection_untimed] at packages
  rw [failuresSection_untimed, failuresSection_untimed] at failures
  rw [unparsedSection_untimed, unparsedSection_untimed] at unparsed
  rw [allowsSection_untimed, allowsSection_untimed] at allows
  have parts : ∀ r : CorpusResult, render r = joinSections
      ([summarySection r, packagesSection (sortedOutcomes r), warningsSection r] ++
        diagnosticsSection r (sortedNames r) ::
          ([failuresSection (sortedOutcomes r), unparsedSection (sortedOutcomes r)] ++
            if (sortedOutcomes r).any fun entry => entry.2.allowCount.isSome then
              [allowsSection (sortedOutcomes r)] else [])) := fun _ => rfl
  rw [parts, parts, joinSections_around _ (by simp) (by simp),
    joinSections_around _ (by simp) (by simp), summary, packages,
    warningsSection_congr alike valid sound, failures, unparsed, allows, counted,
    List.append_cancel_left_eq, List.append_cancel_left_eq, List.append_cancel_right_eq,
    ← sortedNames_congr alike]

end Report
end LintCorpus
