import LintCorpus.CorpusResult
import Mathlib.Data.List.Basic

/-!
Valid results. The check goes over the findings one by one with the keys met before, and passes
exactly if the result as a whole is valid.
-/
namespace LintCorpus.CorpusResult

/-- Every finding is filed under its own rule and names a package of the run, and no two findings
are the same. -/
structure Valid (r : CorpusResult) : Prop where
  filed : ∀ entry ∈ r.filed, entry.2.rule = entry.1
  known : ∀ d ∈ r.allDiagnostics, d.package ∈ r.packages
  distinct : (r.allDiagnostics.map Diagnostic.key).Nodup

theorem map_filed (r : CorpusResult) : r.filed.map Prod.snd = r.allDiagnostics := by
  rw [filed, List.map_flatMap, allDiagnostics, Dict.values, ← List.flatMap_def]
  congr 1
  funext entry
  rw [List.map_map]
  exact List.map_id entry.2

theorem mem_filed (r : CorpusResult) (rule : Text) (d : Diagnostic) :
    (rule, d) ∈ r.filed ↔ ∃ ds, (rule, ds) ∈ r.diagnostics.entries ∧ d ∈ ds := by
  simp only [filed, List.mem_flatMap, List.mem_map, Prod.mk.injEq]
  constructor
  · rintro ⟨⟨name, ds⟩, member, e, inside, rfl, rfl⟩
    exact ⟨ds, member, inside⟩
  · rintro ⟨ds, member, inside⟩
    exact ⟨(rule, ds), member, d, inside, rfl, rfl⟩

variable (packages : List Text)

private theorem checkOne_eq_ok (seen after : List DiagnosticKey) (entry : Text × Diagnostic) :
    checkOne packages seen entry = .ok after ↔
      entry.2.rule = entry.1 ∧ entry.2.package ∈ packages ∧ entry.2.key ∉ seen ∧
        after = entry.2.key :: seen := by
  unfold checkOne
  dsimp only
  split
  · next misfiled => simp [misfiled]
  · next filed =>
    split
    · next unknown => simp_all
    · next known =>
      split
      · next repeated => simp_all
      · next new =>
        have own : entry.2.rule = entry.1 := Decidable.not_not.mp filed
        have inside : entry.2.package ∈ packages := by simpa using known
        have first : entry.2.key ∉ seen := by simpa using new
        simp only [Except.ok.injEq, own, inside, first, not_false_eq_true, true_and]
        exact eq_comm

private theorem foldlM_checkOne (entries : List (Text × Diagnostic)) (seen : List DiagnosticKey) :
    (∃ after, entries.foldlM (checkOne packages) seen = .ok after) ↔
      (∀ entry ∈ entries, entry.2.rule = entry.1 ∧ entry.2.package ∈ packages) ∧
        (entries.map fun entry => entry.2.key).Nodup ∧ ∀ entry ∈ entries, entry.2.key ∉ seen := by
  induction entries generalizing seen with
  | nil => simp [pure, Except.pure]
  | cons entry rest ih =>
    rw [List.foldlM_cons]
    constructor
    · rintro ⟨after, passed⟩
      cases here : checkOne packages seen entry with
      | error fault =>
        rw [here] at passed
        cases passed
      | ok middle =>
        rw [here] at passed
        obtain ⟨filed, known, new, rfl⟩ := (checkOne_eq_ok packages seen middle entry).mp here
        obtain ⟨others, distinct, later⟩ := (ih _).mp ⟨after, passed⟩
        refine ⟨?_, ?_, ?_⟩
        · exact List.forall_mem_cons.mpr ⟨⟨filed, known⟩, others⟩
        · rw [List.map_cons, List.nodup_cons, List.mem_map]
          refine ⟨?_, distinct⟩
          rintro ⟨other, member, same⟩
          exact later other member (by simp [same])
        · refine List.forall_mem_cons.mpr ⟨new, fun other member met => ?_⟩
          exact later other member (List.mem_cons_of_mem _ met)
    · rintro ⟨sound, distinct, fresh⟩
      rw [List.map_cons, List.nodup_cons] at distinct
      have here := (checkOne_eq_ok packages seen _ entry).mpr
        ⟨(sound entry (by simp)).1, (sound entry (by simp)).2, fresh entry (by simp), rfl⟩
      rw [here]
      refine (ih _).mpr ⟨fun other member => sound other (by simp [member]), distinct.2, ?_⟩
      intro other member met
      rcases List.mem_cons.mp met with same | before
      · exact distinct.1 (List.mem_map.mpr ⟨other, member, same⟩)
      · exact fresh other (by simp [member]) before

/-- A result passes the check if and only if it is valid, and then it is not changed. -/
theorem check_eq_ok (r s : CorpusResult) : r.check = .ok s ↔ s = r ∧ r.Valid := by
  have whole := foldlM_checkOne r.packages r.filed []
  have keys : (r.filed.map fun entry => entry.2.key) = r.allDiagnostics.map Diagnostic.key := by
    rw [← map_filed, List.map_map]
    rfl
  have valid : (∃ after, r.filed.foldlM (checkOne r.packages) [] = .ok after) ↔ r.Valid := by
    rw [whole, keys]
    constructor
    · rintro ⟨sound, distinct, -⟩
      refine ⟨fun entry member => (sound entry member).1, fun d member => ?_, distinct⟩
      rw [← map_filed] at member
      obtain ⟨entry, inside, rfl⟩ := List.mem_map.mp member
      exact (sound entry inside).2
    · intro valid
      refine ⟨fun entry member => ⟨valid.filed entry member, ?_⟩, valid.distinct, by simp⟩
      refine valid.known _ ?_
      rw [← map_filed]
      exact List.mem_map_of_mem member
  rw [← valid, check]
  cases outcome : r.filed.foldlM (checkOne r.packages) [] with
  | error fault => simp [bind, Except.bind]
  | ok after => simp [bind, Except.bind, pure, Except.pure, eq_comm]

end LintCorpus.CorpusResult
