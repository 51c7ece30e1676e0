import LintCorpus.Proofs.Gate

/-!
Packages do not meddle with each other. Two corpora may differ in every package but one; what is
reported of that one package is the same, whatever the output of the others forges in its name.
-/
namespace LintCorpus

open Gate

/-- Two runs of a package that tell the same of it. -/
structure PackageRun.Agrees (run other : PackageRun) : Prop where
  name : run.name = other.name
  invocation : run.invocation = other.invocation
  parsed : run.parsed = other.parsed
  allowCount : run.allowCount = other.allowCount

namespace PackageRun.Agrees

variable {run other : PackageRun} (agrees : run.Agrees other) (target : Option Text)

include agrees

theorem ownDiagnostics : run.ownDiagnostics = other.ownDiagnostics := by
  rw [PackageRun.ownDiagnostics, PackageRun.ownDiagnostics, agrees.parsed, agrees.name]

theorem kept : run.kept target = other.kept target := by
  rw [PackageRun.kept, PackageRun.kept, agrees.ownDiagnostics]

theorem outcome : run.outcome (run.kept target) (run.filteredOut target) =
    other.outcome (other.kept target) (other.filteredOut target) := by
  have counted : run.filteredOut target = other.filteredOut target := by
    rw [filteredOut, filteredOut, agrees.kept, agrees.ownDiagnostics]
  simp only [PackageRun.outcome, counted, agrees.kept, agrees.name, agrees.invocation,
    agrees.parsed, agrees.allowCount]

theorem violates {policy : PolicyConfig} {violation : Violation}
    (blamed : run.Violates target policy violation) : other.Violates target policy violation := by
  have reports : ∀ target, run.Reports target ↔ other.Reports target := by
    intro target
    rw [reports_iff, reports_iff, agrees.kept]
  cases blamed with
  | crashed ended => exact .crashed (agrees.invocation ▸ ended)
  | timeout ended => exact .timeout (agrees.invocation ▸ ended)
  | compileError counts ended => exact .compileError counts (agrees.invocation ▸ ended)
  | nothingToReport counts ended exited silent =>
    exact .nothingToReport counts (agrees.invocation ▸ ended) (agrees.invocation ▸ exited)
      ((reports target).not.mp silent)
  | unclean rule tested expected reported =>
    exact .unclean rule tested (agrees.name ▸ expected) ((reports _).mp reported)

theorem symm : other.Agrees run :=
  ⟨agrees.name.symm, agrees.invocation.symm, agrees.parsed.symm, agrees.allowCount.symm⟩

end PackageRun.Agrees

/-- What is blamed on the runs of a corpus in the name of a package is blamed on its own run. -/
private theorem violates_named {runs : List PackageRun} (target : Option Text)
    (policy : PolicyConfig) (violation : Violation)
    (distinct : (runs.map PackageRun.name).Nodup) {run : PackageRun} (present : run ∈ runs) :
    (∃ other ∈ runs, other.name = run.name ∧ other.Violates target policy violation) ↔
      run.Violates target policy violation := by
  constructor
  · rintro ⟨other, member, same, blamed⟩
    exact List.inj_on_of_nodup_map distinct member present same ▸ blamed
  · exact fun blamed => ⟨run, present, rfl, blamed⟩

/-- If two corpora agree on the run of a package, then its outcome, its findings and all that is
held against it are the same in both results, whatever the runs of the other packages hold. -/
theorem packages_isolated (first second : List PackageRun) (target : Option Text)
    (policy : PolicyConfig) (here there : Path) (distinct : (first.map PackageRun.name).Nodup)
    (apart : (second.map PackageRun.name).Nodup) (run other : PackageRun)
    (present : run ∈ first) (among : other ∈ second) (agrees : run.Agrees other) :
    ∃ r s, aggregate first target here = .ok r ∧ aggregate second target there = .ok s ∧
      (∃ o, r.outcomes.find? run.name = some o ∧ s.outcomes.find? run.name = some o) ∧
      r.diagnosticsFor run.name = s.diagnosticsFor run.name ∧
      (evaluate r policy).reasons = (byOutcome r policy ++ byLint r policy).map describe ∧
      (evaluate s policy).reasons = (byOutcome s policy ++ byLint s policy).map describe ∧
      (∀ violation, (run.name, violation) ∈ byOutcome r policy ↔
        (run.name, violation) ∈ byOutcome s policy) ∧
      ∀ violation, (run.name, violation) ∈ byLint r policy ↔
        (run.name, violation) ∈ byLint s policy := by
  obtain ⟨m, covers, merged⟩ := aggregate_covers first target here distinct
  obtain ⟨n, spans, united⟩ := aggregate_covers second target there apart
  have blamed : ∀ violation,
      (∃ any ∈ first, any.name = run.name ∧ any.Violates target policy violation) ↔
        ∃ any ∈ second, any.name = run.name ∧ any.Violates target policy violation := by
    intro violation
    rw [violates_named target policy violation distinct present, agrees.name,
      violates_named target policy violation apart among]
    exact ⟨agrees.violates target, agrees.symm.violates target⟩
  refine ⟨_, _, merged, united, ?_, ?_, reasons_eq _ _, reasons_eq _ _, ?_, ?_⟩
  · refine ⟨_, covers.find?_outcome present, ?_⟩
    rw [agrees.outcome, agrees.name]
    exact spans.find?_outcome among
  · rw [covers.diagnosticsFor distinct here present, agrees.kept, agrees.name,
      spans.diagnosticsFor apart there among]
  · intro violation
    rw [mem_byOutcome_result covers, mem_byOutcome_result spans]
    simp only [blamed violation]
  · intro violation
    rw [mem_byLint_result covers, mem_byLint_result spans]
    simp only [blamed violation]

/-- The output of another package forges a finding in the name of a package that has the very same
finding, and is run before it. -/
theorem packages_isolated_forged :
    let finding (package rule : Text) : Diagnostic :=
      { package, rule, severity := .warning, message := "m" }
    let run (name : Text) (diagnostics : List Diagnostic) : PackageRun :=
      { package := { name, path := Path.ofText name }
        invocation :=
          { package := name, command := [], returncode := some 0, status := .lintFindings }
        parsed := { diagnostics } }
    let own := run "a" [finding "a" "x"]
    let policy : PolicyConfig := { expectedClean := ["a"] }
    ∃ r s, aggregate [run "b" [], own] (some "x") (Path.ofText "/here") = .ok r ∧
      aggregate [run "b" [finding "a" "x", finding "a" "y"], own] (some "x")
        (Path.ofText "/there") = .ok s ∧
      s.diagnosticsFor "a" = [finding "a" "x"] ∧
      describe ("a", .reports "x") ∈ (evaluate s policy).reasons := by
  intro finding run own policy
  obtain ⟨r, s, plain, forged, -, listed, -, reasons, -, unclean⟩ :=
    packages_isolated [run "b" [], own] [run "b" [finding "a" "x", finding "a" "y"], own]
      (some "x") policy (Path.ofText "/here") (Path.ofText "/there") (by decide) (by decide)
      own own (by simp) (by simp) ⟨rfl, rfl, rfl, rfl⟩
  have seen : (aggregate [run "b" [], own] (some "x") (Path.ofText "/here")).toOption.map
      (fun r => (r.diagnosticsFor "a", decide ((own.name, Violation.reports "x") ∈ byLint r policy))) =
        some ([finding "a" "x"], true) := by
    decide +kernel
  simp only [plain, Except.toOption, Option.map_some, Option.some.injEq, Prod.mk.injEq,
    decide_eq_true_eq] at seen
  refine ⟨r, s, plain, forged, listed.symm.trans seen.1, ?_⟩
  rw [reasons]
  apply List.mem_map_of_mem
  exact List.mem_append_right _ ((unclean _).mp seen.2)

end LintCorpus
