import LintCorpus.Proofs.Report.Alike

/-!
Reports of runs. Neither the order in which packages were run nor the time that took nor the root of
the corpus shows in one.
-/
namespace LintCorpus

/-- A run without the times at which it began and ended. -/
def PackageRun.untimed (run : PackageRun) : PackageRun :=
  { run with invocation := { run.invocation with startedAt := 0, finishedAt := 0 } }

namespace PackageRun

variable (target : Option Text)

def untimedOutcome (run : PackageRun) : Outcome :=
  (run.outcome (run.kept target) (run.filteredOut target)).untimed

theorem name_untimed (run : PackageRun) : run.untimed.name = run.name := rfl

theorem kept_untimed (run : PackageRun) : run.untimed.kept target = run.kept target := rfl

theorem untimedOutcome_untimed (run : PackageRun) :
    run.untimed.untimedOutcome target = run.untimedOutcome target := by
  have payload : run.untimed.invocation.payload = run.invocation.payload := rfl
  have tail : run.untimed.invocation.defaultTail = run.invocation.defaultTail := by
    rw [Invocation.defaultTail, Invocation.defaultTail, Invocation.tail, Invocation.tail, payload]
  simp only [untimedOutcome, outcome, Outcome.untimed, tail]
  rfl

end PackageRun

namespace Merged

variable {target : Option Text} {m n : Merged} {runs others : List PackageRun}

theorem Covers.mem_rules (covers : Covers target m runs) (rule : Text) :
    rule ∈ m.byRule.keys ↔ ∃ d ∈ runs.flatMap (PackageRun.kept target), d.rule = rule := by
  rw [covers.byRule, mem_keys_fileAll]
  simp only [Dict.keys_empty, List.not_mem_nil, false_or]

private theorem Covers.entries_untimed (covers : Covers target m runs) (root : Path) :
    (m.result target root).untimed.entries =
      (runs.map PackageRun.untimed).map fun run => (run.name, run.untimedOutcome target) := by
  have entries : (m.result target root).untimed.entries =
      m.outcomes.entries.map fun entry => (entry.1, entry.2.untimed) := rfl
  rw [entries, covers.outcomes, List.map_map, List.map_map]
  apply List.map_congr_left
  intro run _
  exact congrArg (run.name, ·) (run.untimedOutcome_untimed target).symm

variable (covers : Covers target m runs) (spans : Covers target n others)
  (distinct : (runs.map PackageRun.name).Nodup) (apart : (others.map PackageRun.name).Nodup)
  (same : (runs.map PackageRun.untimed).Perm (others.map PackageRun.untimed))

include covers spans distinct apart same

theorem Covers.alike (here there : Path) :
    (m.result target here).Alike (n.result target there) := by
  have kept : (runs.flatMap (PackageRun.kept target)).Perm
      (others.flatMap (PackageRun.kept target)) := by
    have listed := same.flatMap_right (PackageRun.kept target)
    rwa [List.flatMap_map, List.flatMap_map] at listed
  constructor
  · rfl
  · intro name
    have entries : (m.result target here).untimed.entries.Perm
        (n.result target there).untimed.entries := by
      rw [covers.entries_untimed, spans.entries_untimed]
      exact same.map _
    have found := (Dict.perm_iff _ _).mp entries name
    rwa [CorpusResult.untimed, CorpusResult.untimed, Dict.find?_mapValues,
      Dict.find?_mapValues] at found
  · intro rule
    rw [Merged.result, Merged.result, covers.mem_rules, spans.mem_rules]
    simp only [kept.mem_iff]
  · intro d
    rw [(covers.perm_allDiagnostics distinct here).mem_iff,
      (spans.perm_allDiagnostics apart there).mem_iff, kept.mem_iff]

end Merged

open Merged Report in
/-- Runs of distinct packages give the same report in every order, whenever they began and ended and
wherever the corpus is. -/
theorem render_unmoved_by_run_order (first second : List PackageRun) (target : Option Text)
    (here there : Path) (distinct : (first.map PackageRun.name).Nodup)
    (same : (first.map PackageRun.untimed).Perm (second.map PackageRun.untimed)) :
    ∃ r s, aggregate first target here = .ok r ∧ aggregate second target there = .ok s ∧
      render r = render s := by
  have apart : (second.map PackageRun.name).Nodup := by
    have names := same.map PackageRun.name
    rw [List.map_map, List.map_map] at names
    exact names.nodup_iff.mp distinct
  obtain ⟨m, covers, merged⟩ := aggregate_covers first target here distinct
  obtain ⟨n, spans, united⟩ := aggregate_covers second target there apart
  refine ⟨_, _, merged, united, ?_⟩
  rw [render_eq_iff (covers.alike spans distinct apart same here there)
    (covers.valid distinct here) (spans.valid apart there)]
  have listed : ∀ name ∈ sortedNames (m.result target here),
      (m.result target here).diagnosticsFor name =
        (n.result target there).diagnosticsFor name := by
    intro name present
    rw [mem_sortedNames] at present
    change name ∈ m.outcomes.keys at present
    rw [covers.keys] at present
    obtain ⟨run, among, rfl⟩ := List.mem_map.mp present
    obtain ⟨other, beside, equal⟩ :=
      List.mem_map.mp (same.subset (List.mem_map_of_mem (f := PackageRun.untimed) among))
    have named : other.name = run.name := by
      rw [← other.name_untimed, equal, run.name_untimed]
    have kept : other.kept target = run.kept target := by
      rw [← other.kept_untimed, equal, run.kept_untimed]
    rw [covers.diagnosticsFor distinct _ among, ← kept, ← named,
      spans.diagnosticsFor apart _ beside]
  rw [diagnosticsSection, diagnosticsSection]
  congr 2
  apply List.flatMap_congr
  intro name present
  rw [listed name present]

/-- Two packages with findings of one rule, run the other way round and at other times. -/
theorem render_unmoved_by_run_order_swapped :
    let run (name : Text) (began ended : Int) : PackageRun :=
      { package := { name, path := Path.ofText name }
        invocation :=
          { package := name, command := [], startedAt := began, finishedAt := ended,
            returncode := some 0, status := .lintFindings }
        parsed :=
          { diagnostics := [{ package := name, rule := "x", severity := .warning, message := "m" }] } }
    ∃ r s, aggregate [run "a" 0 3, run "b" 1 2] none (Path.ofText "/here") = .ok r ∧
      aggregate [run "b" 5 9, run "a" 5 6] none (Path.ofText "/there") = .ok s ∧
      Report.render r = Report.render s := by
  intro run
  exact render_unmoved_by_run_order [run "a" 0 3, run "b" 1 2] [run "b" 5 9, run "a" 5 6] none _ _
    (by decide) (List.Perm.swap _ _ _)

end LintCorpus
