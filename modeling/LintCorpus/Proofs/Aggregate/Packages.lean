import LintCorpus.Proofs.Aggregate.Merge
import LintCorpus.Proofs.Sorting

/-!
What a result says of one package. It is what the run of that package amounts to: its outcome, and
the findings it kept, sorted.
-/
namespace LintCorpus

private theorem filter_flatMap {α : Type} {parts : List α} {findings : α → List Diagnostic}
    (mark : Diagnostic → Text) (own : α → Text) (apart : (parts.map own).Nodup)
    (marked : ∀ part ∈ parts, ∀ d ∈ findings part, mark d = own part)
    {part : α} (present : part ∈ parts) :
    (parts.flatMap findings).filter (fun d => mark d == own part) = findings part := by
  induction parts with
  | nil => cases present
  | cons first rest ih =>
    obtain ⟨here, later⟩ := List.forall_mem_cons.mp marked
    rw [List.map_cons, List.nodup_cons] at apart
    rw [List.flatMap_cons, List.filter_append]
    rcases List.mem_cons.mp present with rfl | among
    · have whole : (findings part).filter (fun d => mark d == own part) = findings part := by
        rw [List.filter_eq_self]
        intro d member
        simp [here d member]
      have nothing : (rest.flatMap findings).filter (fun d => mark d == own part) = [] := by
        rw [List.filter_eq_nil_iff]
        intro d member
        obtain ⟨other, among, inside⟩ := List.mem_flatMap.mp member
        rw [later other among d inside, beq_iff_eq]
        intro same
        exact apart.1 (same ▸ List.mem_map_of_mem among)
      rw [whole, nothing, List.append_nil]
    · have nothing : (findings first).filter (fun d => mark d == own part) = [] := by
        rw [List.filter_eq_nil_iff]
        intro d member
        rw [here d member, beq_iff_eq]
        intro same
        exact apart.1 (same ▸ List.mem_map_of_mem among)
      rw [nothing, List.nil_append, ih apart.2 later among]

theorem CorpusResult.Valid.filter_rule {r : CorpusResult} (valid : r.Valid) (rule : Text) :
    r.allDiagnostics.filter (fun d => d.rule == rule) = (r.diagnostics.find? rule).getD [] := by
  have filed : ∀ entry ∈ r.diagnostics.entries, ∀ d ∈ entry.2, d.rule = entry.1 := by
    intro entry member d inside
    exact valid.filed (entry.1, d) ((mem_filed r entry.1 d).mpr ⟨entry.2, member, inside⟩)
  rw [allDiagnostics, Dict.values, ← List.flatMap_def]
  cases found : r.diagnostics.find? rule with
  | some ds =>
    have member := (Dict.find?_eq_some _ _).mp found
    exact filter_flatMap Diagnostic.rule Prod.fst r.diagnostics.distinct filed member
  | none =>
    rw [Option.getD_none, List.filter_eq_nil_iff]
    intro d member
    obtain ⟨entry, present, inside⟩ := List.mem_flatMap.mp member
    rw [filed entry present d inside, beq_iff_eq]
    rintro rfl
    rw [(Dict.find?_eq_some _ _).mpr present] at found
    cases found

namespace Merged

variable {target : Option Text} {m : Merged} {runs : List PackageRun}

theorem Covers.mem_outcomes (covers : Covers target m runs) {entry : Text × Outcome} :
    entry ∈ m.outcomes.entries ↔ ∃ run ∈ runs,
      (run.name, run.outcome (run.kept target) (run.filteredOut target)) = entry := by
  rw [covers.outcomes, List.mem_map]

theorem Covers.find?_outcome (covers : Covers target m runs) {run : PackageRun}
    (present : run ∈ runs) : m.outcomes.find? run.name =
      some (run.outcome (run.kept target) (run.filteredOut target)) := by
  rw [Dict.find?_eq_some, covers.mem_outcomes]
  exact ⟨run, present, rfl⟩

theorem Covers.find?_rule (covers : Covers target m runs) (rule : Text) :
    (m.byRule.find? rule).getD [] =
      (runs.flatMap (PackageRun.kept target)).filter fun d => d.rule == rule := by
  rw [covers.byRule, find?_fileAll]
  rfl

theorem Covers.values (covers : Covers target m runs) : m.outcomes.values =
    runs.map fun run => run.outcome (run.kept target) (run.filteredOut target) := by
  rw [Dict.values, covers.outcomes, List.map_map]
  rfl

variable (covers : Covers target m runs) (distinct : (runs.map PackageRun.name).Nodup)

include covers distinct

/-- A result holds what the runs kept, each finding as often as they did. -/
theorem Covers.perm_allDiagnostics (root : Path) :
    (m.result target root).allDiagnostics.Perm (runs.flatMap (PackageRun.kept target)) := by
  rw [List.perm_iff_count]
  intro d
  have filed := (covers.valid distinct root).filter_rule d.rule
  have found : (m.result target root).diagnostics = m.byRule := rfl
  rw [found, covers.find?_rule] at filed
  have counted := congrArg (List.count d) filed
  rwa [List.count_filter (by simp), List.count_filter (by simp)] at counted

theorem Covers.diagnosticsFor (root : Path) {run : PackageRun} (present : run ∈ runs) :
    (m.result target root).diagnosticsFor run.name = Diagnostic.sort (run.kept target) := by
  have own : ∀ run ∈ runs, ∀ d ∈ run.kept target, d.package = run.name :=
    fun _ _ _ kept => PackageRun.package_of_mem_kept kept
  rw [CorpusResult.diagnosticsFor]
  apply Diagnostic.sort_congr
  intro rule
  rw [List.filter_comm, (covers.valid distinct root).filter_rule rule, Merged.result,
    covers.find?_rule, List.filter_comm,
    filter_flatMap Diagnostic.package PackageRun.name distinct own present]

end Merged
end LintCorpus
