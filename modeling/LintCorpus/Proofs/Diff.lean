import LintCorpus.Diff
import LintCorpus.Proofs.Aggregate.Valid
import LintCorpus.Proofs.Sorting

/-!
What a comparison of two results amounts to. New are the keys that only the later result holds, gone
those that only the earlier one holds, and each of them is told once, by the finding that has it.
-/
namespace LintCorpus

theorem CorpusResult.mem_keys (r : CorpusResult) (key : DiagnosticKey) :
    key ∈ r.keys ↔ ∃ d ∈ r.allDiagnostics, d.key = key := by
  rw [keys, List.mem_eraseDups, List.mem_map]

namespace ResultDiff

theorem compare_eq_compareLex : compare =
    compareLex (compareOn Diagnostic.package) (compareLex (compareOn Diagnostic.rule)
      fun a b => a.sortKey.compare b.sortKey) := rfl

instance : Std.TransCmp ResultDiff.compare := by
  rw [compare_eq_compareLex]
  infer_instance

/-- Not after another finding, by package, then rule, then place. -/
def NotAfter (a b : Diagnostic) : Prop := (compare a b).isLE = true

instance (a b : Diagnostic) : Decidable (NotAfter a b) := inferInstanceAs (Decidable (_ = true))

/-- By package, then rule, file, line, column and message. -/
def InOrder (a b : Diagnostic) : Prop :=
  Text.Before a.package b.package ∨ a.package = b.package ∧
    (Text.Before a.rule b.rule ∨ a.rule = b.rule ∧ a.sortKey.InOrder b.sortKey)

theorem notAfter_iff_inOrder {a b : Diagnostic} : NotAfter a b ↔ InOrder a b := by
  simp only [NotAfter, compare, InOrder, Ordering.isLE_then_iff_or, Text.compare_eq_lt,
    Std.LawfulEqOrd.compare_eq_iff_eq, ← SortKey.le_iff_inOrder, SortKey.le]

theorem le_trans (a b c : Diagnostic) (first : (compare a b).isLE = true)
    (second : (compare b c).isLE = true) : (compare a c).isLE = true :=
  Std.TransCmp.isLE_trans first second

theorem sort_ascends (ds : List Diagnostic) : (sort ds).Pairwise NotAfter :=
  List.pairwise_mergeSort le_trans isLE_total ds

theorem mem_sort {ds : List Diagnostic} {d : Diagnostic} : d ∈ sort ds ↔ d ∈ ds := List.mem_mergeSort

variable (other r : CorpusResult)

theorem mem_missingFrom (d : Diagnostic) :
    d ∈ missingFrom other r ↔ d ∈ r.allDiagnostics ∧ d.key ∉ other.keys := by
  simp only [missingFrom, mem_sort, List.mem_filter, Bool.not_eq_true', List.contains_eq_mem,
    decide_eq_false_iff_not, CorpusResult.keys, List.mem_eraseDups]

theorem mem_keys_missingFrom (key : DiagnosticKey) :
    key ∈ (missingFrom other r).map Diagnostic.key ↔ key ∈ r.keys ∧ key ∉ other.keys := by
  simp only [List.mem_map, mem_missingFrom, r.mem_keys]
  constructor
  · rintro ⟨d, ⟨held, new⟩, rfl⟩
    exact ⟨⟨d, held, rfl⟩, new⟩
  · rintro ⟨⟨d, held, rfl⟩, new⟩
    exact ⟨d, ⟨held, new⟩, rfl⟩

theorem nodup_keys_missingFrom (valid : r.Valid) :
    ((missingFrom other r).map Diagnostic.key).Nodup := by
  -- no key comes twice in what is sorted, since a valid result has each key once
  have sorted := (List.mergeSort_perm (r.allDiagnostics.filter fun d =>
    !(other.allDiagnostics.map Diagnostic.key).contains d.key)
      fun a b => (compare a b).isLE).map Diagnostic.key
  exact sorted.nodup_iff.mpr (valid.distinct.sublist (List.filter_sublist.map _))

/-- These are the findings that `later` has and `earlier` has not: those keys and no others, each
once, told by findings of `later` as they are, in order. -/
structure Lists (earlier later : CorpusResult) (found : List Diagnostic) : Prop where
  keys : ∀ key, key ∈ found.map Diagnostic.key ↔ key ∈ later.keys ∧ key ∉ earlier.keys
  once : (found.map Diagnostic.key).Nodup
  own : ∀ d ∈ found, d ∈ later.allDiagnostics
  ascends : found.Pairwise NotAfter
  ordered : found.Pairwise InOrder

theorem missingFrom_lists (valid : r.Valid) : Lists other r (missingFrom other r) where
  keys := mem_keys_missingFrom other r
  once := nodup_keys_missingFrom other r valid
  own d found := ((mem_missingFrom other r d).mp found).1
  ascends := sort_ascends _
  ordered := (sort_ascends _).imp notAfter_iff_inOrder.mp

theorem missingFrom_eq_nil : missingFrom other r = [] ↔ ∀ key ∈ r.keys, key ∈ other.keys := by
  rw [List.eq_nil_iff_forall_not_mem]
  constructor
  · intro none key held
    obtain ⟨d, found, rfl⟩ := (r.mem_keys key).mp held
    by_contra new
    exact none d ((mem_missingFrom other r d).mpr ⟨found, new⟩)
  · intro all d found
    obtain ⟨held, new⟩ := (mem_missingFrom other r d).mp found
    exact new (all d.key ((r.mem_keys d.key).mpr ⟨d, held, rfl⟩))

theorem hasChanges_between (baseline current : CorpusResult) :
    (between baseline current).hasChanges = false ↔
      ∀ key, key ∈ baseline.keys ↔ key ∈ current.keys := by
  rw [hasChanges, Bool.or_eq_false_iff, Bool.not_eq_false', Bool.not_eq_false', List.isEmpty_iff,
    List.isEmpty_iff]
  simp only [between, missingFrom_eq_nil]
  constructor
  · rintro ⟨back, forth⟩ key
    exact ⟨forth key, back key⟩
  · intro same
    exact ⟨fun key => (same key).mpr, fun key => (same key).mp⟩

end ResultDiff

open ResultDiff

/-- Comparing two valid results gives the exact difference of their keys both ways. Without what is
gone and with what is new the keys of the earlier result are those of the later one; nothing has
changed if and only if the keys are the same; and the other way round new and gone change places. -/
theorem between_exact (baseline current : CorpusResult) (before : baseline.Valid)
    (after : current.Valid) :
    let d := between baseline current
    Lists baseline current d.introduced ∧ Lists current baseline d.resolved ∧
      (∀ key, key ∈ current.keys ↔
        (key ∈ baseline.keys ∧ key ∉ d.resolved.map Diagnostic.key) ∨
          key ∈ d.introduced.map Diagnostic.key) ∧
      (d.hasChanges = false ↔ ∀ key, key ∈ baseline.keys ↔ key ∈ current.keys) ∧
      between current baseline = { introduced := d.resolved, resolved := d.introduced } := by
  intro d
  have new : Lists baseline current d.introduced := missingFrom_lists baseline current after
  have gone : Lists current baseline d.resolved := missingFrom_lists current baseline before
  refine ⟨new, gone, fun key => ?_, hasChanges_between baseline current, rfl⟩
  rw [gone.keys, new.keys]
  by_cases held : key ∈ baseline.keys <;> simp [held]

/-- One finding is gone, one is new, and one has become an error, which does not count. -/
theorem between_exact_overlapping :
    let finding (line : Int) (severity : Severity) : Diagnostic :=
      { package := "a", rule := "x", severity, message := "m", line := some line }
    let result (ds : List Diagnostic) : CorpusResult :=
      { root := Path.ofText "/here", packages := ["a"], diagnostics := .ofList [("x", ds)] }
    let baseline := result [finding 2 .warning, finding 1 .warning]
    let current := result [finding 3 .note, finding 2 .error]
    let d := between baseline current
    baseline.Valid ∧ current.Valid ∧ d = ⟨[finding 3 .note], [finding 1 .warning]⟩ ∧
      Lists baseline current d.introduced ∧ Lists current baseline d.resolved ∧
      d.hasChanges = true := by
  intro finding result baseline current d
  have before : baseline.Valid := ⟨by decide +kernel, by decide +kernel, by decide +kernel⟩
  have after : current.Valid := ⟨by decide +kernel, by decide +kernel, by decide +kernel⟩
  obtain ⟨new, gone, -, unchanged, -⟩ := between_exact baseline current before after
  refine ⟨before, after, by decide +kernel, new, gone, ?_⟩
  rw [← Bool.not_eq_false, unchanged]
  intro same
  exact absurd ((same (finding 1 .warning).key).mp (by decide +kernel)) (by decide +kernel)

end LintCorpus
