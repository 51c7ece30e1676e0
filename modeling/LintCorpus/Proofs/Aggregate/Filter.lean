import LintCorpus.Proofs.Aggregate.Packages
import LintCorpus.Proofs.Aggregate.Status

/-!
Runs under a target lint. Repeated findings are dropped before the target lint is looked at, so the
result under a target lint is a part of the result without one.
-/
namespace LintCorpus

namespace PackageRun

variable (run : PackageRun) (rule : Text)

theorem kept_some : run.kept (some rule) = (run.kept none).filter fun d => d.rule == rule := by
  rw [kept_none]
  rfl

theorem filteredOut_none : run.filteredOut none = 0 := by
  rw [filteredOut, kept_none, Int.sub_self]

/-- How the same run comes out without a target lint and with one, given all findings of its
package. -/
structure Projected (whole : List Diagnostic) (unfiltered filtered : Outcome) : Prop where
  counted : filtered.diagnostics + filtered.filteredOut = unfiltered.diagnostics
  complete : unfiltered.filteredOut = 0
  carried : filtered.returncode = unfiltered.returncode ∧
    filtered.unparsedOutput = unfiltered.unparsedOutput ∧
    filtered.parseIssues = unfiltered.parseIssues ∧ filtered.duration = unfiltered.duration ∧
    filtered.allowCount = unfiltered.allowCount
  broken : run.invocation.status.brokeBuild = true →
    filtered.status = run.invocation.status ∧ unfiltered.status = run.invocation.status
  findings : filtered.status = .lintFindings → unfiltered.status = .lintFindings
  clean : unfiltered.status = .success → filtered.status = .success
  differs : filtered.status ≠ unfiltered.status ↔
    unfiltered.status = .lintFindings ∧ ∀ d ∈ whole, d.rule ≠ rule

/-- A target lint changes the class of a run exactly if there were findings but none of the rule. -/
private theorem settle_cases :
    (settle run.invocation.status run.invocation.returncode (run.kept (some rule)) =
        settle run.invocation.status run.invocation.returncode (run.kept none) ∧
      (run.kept (some rule) = [] →
        settle run.invocation.status run.invocation.returncode (run.kept none) ≠ .lintFindings)) ∨
    (run.invocation.status.brokeBuild = false ∧
      settle run.invocation.status run.invocation.returncode (run.kept none) = .lintFindings ∧
      settle run.invocation.status run.invocation.returncode (run.kept (some rule)) ≠
        .lintFindings ∧ run.kept (some rule) = []) := by
  cases broken : run.invocation.status.brokeBuild with
  | true =>
    rw [settle_broken broken, settle_broken broken]
    refine .inl ⟨rfl, fun _ findings => ?_⟩
    rw [findings] at broken
    cases broken
  | false =>
    simp only [settle_sound broken]
    by_cases whole : run.kept none = []
    · have part : run.kept (some rule) = [] := by rw [kept_some, whole, List.filter_nil]
      rw [if_pos whole, if_pos part]
      refine .inl ⟨rfl, fun _ => ?_⟩
      split <;> nofun
    · rw [if_neg whole]
      by_cases part : run.kept (some rule) = []
      · rw [if_pos part]
        refine .inr ⟨trivial, rfl, ?_, part⟩
        split <;> nofun
      · rw [if_neg part]
        exact .inl ⟨rfl, fun none => absurd none part⟩

theorem projected : run.Projected rule (run.kept none)
    (run.outcome (run.kept none) (run.filteredOut none))
    (run.outcome (run.kept (some rule)) (run.filteredOut (some rule))) := by
  have absent : run.kept (some rule) = [] ↔ ∀ d ∈ run.kept none, d.rule ≠ rule := by
    rw [kept_some, List.filter_eq_nil_iff]
    simp only [beq_iff_eq, ne_eq]
  have counts : (run.kept none).length = run.ownDiagnostics.length := congrArg List.length kept_none
  have classes := settle_cases run rule
  constructor
  · show ((run.kept (some rule)).length : Int) + run.filteredOut (some rule) = (run.kept none).length
    rw [filteredOut]
    omega
  · exact run.filteredOut_none
  · exact ⟨rfl, rfl, rfl, rfl, rfl⟩
  · exact fun broken => ⟨settle_broken broken _ _, settle_broken broken _ _⟩
  · intro findings
    rcases classes with ⟨same, -⟩ | ⟨-, whole, -, -⟩
    · exact same.symm.trans findings
    · exact whole
  · intro clean
    rcases classes with ⟨same, -⟩ | ⟨-, whole, -, -⟩
    · exact same.trans clean
    · cases whole.symm.trans clean
  · rw [← absent]
    rcases classes with ⟨same, apart⟩ | ⟨-, whole, part, none⟩
    · exact iff_of_false (fun differ => differ same) fun both => apart both.2 both.1
    · exact iff_of_true (fun same => part (same.trans whole)) ⟨whole, none⟩

end PackageRun

/-- The result under a target lint is a part of the result without one: it has the findings of that
rule and no others, it counts the rest, and a package comes out in another class exactly if it had
findings but none of the rule. -/
theorem filter_projects (runs : List PackageRun) (rule : Text) (root : Path)
    (distinct : (runs.map PackageRun.name).Nodup) :
    ∃ whole part, aggregate runs none root = .ok whole ∧
      aggregate runs (some rule) root = .ok part ∧
      (∀ filed ∈ part.diagnostics.keys, filed = rule) ∧
      (part.diagnostics.find? rule).getD [] = (whole.diagnostics.find? rule).getD [] ∧
      whole.outcomes.keys = runs.map PackageRun.name ∧
      part.outcomes.keys = runs.map PackageRun.name ∧
      ∀ run ∈ runs, ∃ unfiltered filtered,
        whole.outcomes.find? run.name = some unfiltered ∧
        part.outcomes.find? run.name = some filtered ∧
        run.Projected rule (whole.diagnosticsFor run.name) unfiltered filtered := by
  obtain ⟨all, wide, whole⟩ := aggregate_covers runs none root distinct
  obtain ⟨few, narrow, part⟩ := aggregate_covers runs (some rule) root distinct
  refine ⟨_, _, whole, part, ?_, ?_, wide.keys, narrow.keys, ?_⟩
  · intro filed member
    have keys : filed ∈ few.byRule.keys := member
    rw [narrow.byRule, Merged.mem_keys_fileAll] at keys
    obtain ⟨d, kept, rfl⟩ := keys.resolve_left (by simp)
    obtain ⟨run, -, inside⟩ := List.mem_flatMap.mp kept
    rw [PackageRun.kept_some] at inside
    exact beq_iff_eq.mp (List.mem_filter.mp inside).2
  · show (few.byRule.find? rule).getD [] = (all.byRule.find? rule).getD []
    rw [narrow.find?_rule, wide.find?_rule, List.filter_flatMap, List.filter_flatMap]
    congr 1
    funext run
    rw [PackageRun.kept_some, List.filter_filter]
    simp only [Bool.and_self]
  · intro run present
    have listed := wide.diagnosticsFor distinct root present
    have projected := run.projected rule
    refine ⟨_, _, wide.find?_outcome present, narrow.find?_outcome present, ?_⟩
    rw [listed]
    exact { projected with
      differs := by simpa only [Diagnostic.mem_sort] using projected.differs }

/-- Two findings, one of them told twice, and another rule under test. -/
theorem filter_projects_nothing :
    let finding (rule : Text) : Diagnostic :=
      { package := "demo", rule, severity := .warning, message := "m" }
    let run : PackageRun :=
      { package := { name := "demo", path := Path.ofText "/crates/demo" }
        invocation :=
          { package := "demo", command := [], returncode := some 0, status := .lintFindings }
        parsed := { diagnostics := [finding "a", finding "b", finding "a"] } }
    ∃ whole part, aggregate [run] none (Path.ofText "/crates") = .ok whole ∧
      aggregate [run] (some "c") (Path.ofText "/crates") = .ok part ∧ part.diagnostics.keys = [] ∧
      ∃ u f, whole.outcomes.find? "demo" = some u ∧ part.outcomes.find? "demo" = some f ∧
        u.status = .lintFindings ∧ f.status ≠ .lintFindings ∧ f.diagnostics + f.filteredOut = 2 := by
  intro finding run
  obtain ⟨whole, part, unfiltered, filtered, -, -, -, -, each⟩ :=
    filter_projects [run] "c" (Path.ofText "/crates") (by simp)
  obtain ⟨u, f, wide, narrow, projected⟩ := each run List.mem_cons_self
  have seen : (aggregate [run] none (Path.ofText "/crates")).toOption.map (fun r =>
      ((r.outcomes.find? "demo").map fun o => (o.status, o.diagnostics),
        r.diagnostics.find? "c")) = some (some (.lintFindings, 2), none) := by
    decide +kernel
  have listed : (aggregate [run] (some "c") (Path.ofText "/crates")).toOption.map (fun r =>
      (r.diagnostics.keys, (r.outcomes.find? "demo").map Outcome.status)) =
        some ([], some .success) := by
    decide +kernel
  have name : run.name = "demo" := rfl
  rw [unfiltered] at seen
  rw [filtered] at listed
  rw [name] at wide narrow
  simp only [Except.toOption, Option.map_some, Option.some.injEq, Prod.mk.injEq, wide, narrow]
    at seen listed
  refine ⟨whole, part, unfiltered, filtered, listed.1, u, f, wide, narrow, seen.1.1, ?_, ?_⟩
  · rw [listed.2]
    nofun
  · rw [projected.counted, seen.1.2]

end LintCorpus
