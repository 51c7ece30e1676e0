import LintCorpus.Gate
import LintCorpus.Proofs.Aggregate.Packages
import LintCorpus.Proofs.Aggregate.Status

/-!
What makes a run of a corpus fail. The gate looks at a merged result, but what it holds against a
package can be told from the run of that package alone, and a stricter policy holds no less against
it.
-/
namespace LintCorpus

namespace Gate

/-- What is held against a package. -/
inductive Violation where
  | outcome (status : Status)
  | reports (lint : Text)
deriving DecidableEq

def describe : Text × Violation → Text
  | (package, .outcome status) => package ++ ": " ++ status.name
  | (package, .reports lint) => package ++ ": expected clean but reports " ++ lint

/-- The packages whose class makes the run fail, in the order of names. -/
def byOutcome (r : CorpusResult) (policy : PolicyConfig) : List (Text × Violation) :=
  (Text.sort r.outcomes.keys).filterMap fun name =>
    (r.outcomes.find? name).bind fun o =>
      if violates policy o.status then some (name, .outcome o.status) else none

/-- The packages that are not as clean as expected, in the order of names. -/
def byLint (r : CorpusResult) (policy : PolicyConfig) : List (Text × Violation) :=
  r.targetLint.toList.flatMap fun lint =>
    (unclean r policy lint).map fun name => (name, .reports lint)

variable (r : CorpusResult) (policy : PolicyConfig)

theorem reasons_eq : (evaluate r policy).reasons =
    (byOutcome r policy ++ byLint r policy).map describe := by
  rw [List.map_append]
  show statusReasons r policy ++ uncleanReasons r policy = _
  congr 1
  · rw [statusReasons, byOutcome, List.map_filterMap]
    congr 1
    funext name
    cases r.outcomes.find? name with
    | none => rfl
    | some o =>
      simp only [Option.bind_some]
      split <;> rfl
  · rw [uncleanReasons, byLint]
    cases r.targetLint with
    | none => rfl
    | some lint => simp [describe, Function.comp_def]

theorem fail_iff : (evaluate r policy).signal = .fail ↔
    ∃ violation, violation ∈ byOutcome r policy ++ byLint r policy := by
  rw [GateDecision.signal, reasons_eq, List.isEmpty_map]
  cases byOutcome r policy ++ byLint r policy with
  | nil => simp
  | cons first rest => simp

theorem mem_byOutcome (name : Text) (violation : Violation) :
    (name, violation) ∈ byOutcome r policy ↔ ∃ o, r.outcomes.find? name = some o ∧
      violates policy o.status = true ∧ violation = .outcome o.status := by
  rw [byOutcome, List.mem_filterMap]
  constructor
  · rintro ⟨key, -, given⟩
    obtain ⟨o, found, told⟩ := Option.bind_eq_some_iff.mp given
    split at told
    next against =>
      cases told
      exact ⟨o, found, against, rfl⟩
    next => cases told
  · rintro ⟨o, found, against, rfl⟩
    refine ⟨name, ?_, ?_⟩
    · have present := (Dict.find?_eq_some _ _).mp found
      exact Text.mem_sort.mpr (List.mem_map_of_mem present)
    · rw [found, Option.bind_some, if_pos against]

theorem mem_byLint (name : Text) (violation : Violation) :
    (name, violation) ∈ byLint r policy ↔ ∃ lint, r.targetLint = some lint ∧
      violation = .reports lint ∧ name ∈ policy.expectedClean ∧
      ∃ d ∈ (r.diagnostics.find? lint).getD [], d.package = name := by
  simp only [byLint, unclean, List.mem_flatMap, Option.mem_toList, List.mem_map, List.mem_filter,
    mem_sortedSet, List.contains_iff_mem, Prod.mk.injEq]
  constructor
  · rintro ⟨lint, tested, key, ⟨expected, d, filed, named⟩, rfl, rfl⟩
    exact ⟨lint, tested, rfl, expected, d, filed, named⟩
  · rintro ⟨lint, tested, rfl, expected, d, filed, named⟩
    exact ⟨lint, tested, name, ⟨expected, d, filed, named⟩, rfl, rfl⟩

theorem byOutcome_ascends : (byOutcome r policy).Pairwise fun a b => a.1.Before b.1 := by
  have own : ∀ name violation, ((r.outcomes.find? name).bind fun o =>
      if violates policy o.status then some (name, Violation.outcome o.status) else none) =
        some violation → violation.1 = name := by
    intro name violation given
    obtain ⟨o, -, told⟩ := Option.bind_eq_some_iff.mp given
    split at told
    · cases told
      rfl
    · cases told
  refine (Text.sort_ascends r.outcomes.distinct).filterMap _ ?_
  intro a b before first one second two
  rwa [own a first one, own b second two]

theorem byLint_ascends : (byLint r policy).Pairwise fun a b => a.1.Before b.1 := by
  rw [byLint]
  cases r.targetLint with
  | none => exact List.Pairwise.nil
  | some lint =>
    simp only [Option.toList_some, List.flatMap_singleton]
    rw [List.pairwise_map]
    exact (sortedSet_ascends policy.expectedClean).filter _

/-- A policy under which at least as much counts. -/
structure Stricter (policy stricter : PolicyConfig) : Prop where
  compiles : policy.compileErrorsFail = true → stricter.compileErrorsFail = true
  expected : policy.expectedClean ⊆ stricter.expectedClean

theorem violates_of_stricter {policy stricter : PolicyConfig} (more : Stricter policy stricter)
    (status : Status) (against : violates policy status = true) :
    violates stricter status = true := by
  cases status with
  | compileError => exact more.compiles against
  | crashed => rfl
  | timeout => rfl
  | success => cases against
  | lintFindings => cases against

theorem mem_of_stricter {policy stricter : PolicyConfig} (more : Stricter policy stricter)
    (violation : Text × Violation) (held : violation ∈ byOutcome r policy ++ byLint r policy) :
    violation ∈ byOutcome r stricter ++ byLint r stricter := by
  rw [List.mem_append] at held ⊢
  rcases held with outcome | lint
  · obtain ⟨o, found, against, same⟩ := (mem_byOutcome r policy _ _).mp outcome
    exact .inl ((mem_byOutcome r stricter _ _).mpr
      ⟨o, found, violates_of_stricter more o.status against, same⟩)
  · obtain ⟨rule, tested, same, expected, reported⟩ := (mem_byLint r policy _ _).mp lint
    exact .inr ((mem_byLint r stricter _ _).mpr
      ⟨rule, tested, same, more.expected expected, reported⟩)

end Gate

namespace PackageRun

open Gate

/-- Whether a finding of the package itself, not an error of the compiler, passes the target
lint. -/
def Reports (run : PackageRun) (target : Option Text) : Prop :=
  ∃ d ∈ run.parsed.lintDiagnostics, d.package = run.name ∧ d.matchesTarget target = true

theorem reports_iff (run : PackageRun) (target : Option Text) :
    run.Reports target ↔ run.kept target ≠ [] := by
  rw [Ne, kept_eq_nil, Reports]
  push Not
  simp only [Bool.not_eq_false]

/-- What a run is to be blamed for: it crashed or took too long, its package was not compiled, or it
reports the lint under test of a package that was expected to be clean. A run that exited with
another code than zero and has nothing to report counts as not compiled. -/
inductive Violates (target : Option Text) (policy : PolicyConfig) (run : PackageRun) :
    Violation → Prop
  | crashed (ended : run.invocation.status = .crashed) : Violates target policy run (.outcome .crashed)
  | timeout (ended : run.invocation.status = .timeout) : Violates target policy run (.outcome .timeout)
  | compileError (counts : policy.compileErrorsFail = true)
      (ended : run.invocation.status = .compileError) :
      Violates target policy run (.outcome .compileError)
  | nothingToReport (counts : policy.compileErrorsFail = true)
      (ended : run.invocation.status = .success ∨ run.invocation.status = .lintFindings)
      (exited : run.invocation.returncode ≠ some 0) (silent : ¬run.Reports target) :
      Violates target policy run (.outcome .compileError)
  | unclean (rule : Text) (tested : target = some rule)
      (expected : run.name ∈ policy.expectedClean) (reported : run.Reports (some rule)) :
      Violates target policy run (.reports rule)

variable (target : Option Text) (policy : PolicyConfig) (run : PackageRun)

theorem violates_outcome (status : Status) :
    run.Violates target policy (.outcome status) ↔
      violates policy (settle run.invocation.status run.invocation.returncode (run.kept target)) =
        true ∧
      status = settle run.invocation.status run.invocation.returncode (run.kept target) := by
  constructor
  · intro blamed
    cases blamed with
    | crashed ended => rw [ended]; exact ⟨rfl, rfl⟩
    | timeout ended => rw [ended]; exact ⟨rfl, rfl⟩
    | compileError counts ended => rw [ended]; exact ⟨counts, rfl⟩
    | nothingToReport counts ended exited silent =>
      have sound : run.invocation.status.brokeBuild = false := by
        rcases ended with clean | findings
        · rw [clean]; rfl
        · rw [findings]; rfl
      rw [reports_iff, not_not] at silent
      rw [settle_sound sound, if_pos silent, if_neg exited]
      exact ⟨counts, rfl⟩
  · rintro ⟨against, rfl⟩
    -- A broken build keeps its class; any other class is settled by the findings and the exit code.
    cases broken : run.invocation.status.brokeBuild with
    | true =>
      rw [settle_broken broken] at against ⊢
      cases ended : run.invocation.status with
      | crashed => exact .crashed ended
      | timeout => exact .timeout ended
      | compileError => exact .compileError (by rwa [ended] at against) ended
      | success => rw [ended] at broken; cases broken
      | lintFindings => rw [ended] at broken; cases broken
    | false =>
      have ended : run.invocation.status = .success ∨ run.invocation.status = .lintFindings := by
        cases ended : run.invocation.status with
        | success => exact .inl rfl
        | lintFindings => exact .inr rfl
        | _ => rw [ended] at broken; cases broken
      rw [settle_sound broken] at against ⊢
      split at against
      next silent =>
        split at against
        next => cases against
        next exited =>
          rw [if_pos silent, if_neg exited]
          exact .nothingToReport against ended exited (by rw [reports_iff, not_not]; exact silent)
      next => cases against

end PackageRun

namespace Gate

variable {target : Option Text} {policy : PolicyConfig} {m : Merged} {runs : List PackageRun}
  (covers : Merged.Covers target m runs) (root : Path) (name : Text) (violation : Violation)

include covers

theorem mem_byOutcome_result : (name, violation) ∈ byOutcome (m.result target root) policy ↔
    ∃ status, violation = .outcome status ∧
      ∃ run ∈ runs, run.name = name ∧ run.Violates target policy violation := by
  rw [mem_byOutcome]
  constructor
  · rintro ⟨o, found, against, rfl⟩
    obtain ⟨run, present, same⟩ := covers.mem_outcomes.mp ((Dict.find?_eq_some _ _).mp found)
    obtain ⟨rfl, rfl⟩ := Prod.mk.inj same
    exact ⟨_, rfl, run, present, rfl, (run.violates_outcome target policy _).mpr ⟨against, rfl⟩⟩
  · rintro ⟨status, rfl, run, present, rfl, blamed⟩
    obtain ⟨against, rfl⟩ := (run.violates_outcome target policy _).mp blamed
    exact ⟨_, covers.find?_outcome present, against, rfl⟩

theorem mem_byLint_result : (name, violation) ∈ byLint (m.result target root) policy ↔
    ∃ rule, violation = .reports rule ∧
      ∃ run ∈ runs, run.name = name ∧ run.Violates target policy violation := by
  rw [mem_byLint]
  simp only [Merged.result, covers.find?_rule]
  constructor
  · rintro ⟨rule, rfl, rfl, expected, d, filed, rfl⟩
    obtain ⟨run, present, kept⟩ := List.mem_flatMap.mp (List.mem_filter.mp filed).1
    have own : d.package = run.name := PackageRun.package_of_mem_kept kept
    refine ⟨rule, rfl, run, present, own.symm, .unclean rule rfl (own ▸ expected) ?_⟩
    exact (run.reports_iff _).mpr (List.ne_nil_of_mem kept)
  · rintro ⟨rule, rfl, run, present, rfl, blamed⟩
    cases blamed with
    | unclean _ tested expected reported =>
      obtain ⟨d, kept⟩ := List.exists_mem_of_ne_nil _ ((run.reports_iff _).mp reported)
      refine ⟨rule, tested, rfl, expected, d, List.mem_filter.mpr ⟨?_, ?_⟩, ?_⟩
      · rw [tested]
        exact List.mem_flatMap.mpr ⟨run, present, kept⟩
      · exact (List.mem_filter.mp kept).2
      · exact PackageRun.package_of_mem_kept kept

end Gate

open Gate in
/-- The verdict on merged runs. It is a failure exactly if some run is to be blamed. There is one
reason for every package and violation, first those of outcomes and then those of the lint under
test, both in the order of names; packages expected to be clean that were not run are named in
order; and a stricter policy never turns a failure into a success. -/
theorem gate_blames_runs (runs : List PackageRun) (target : Option Text) (root : Path)
    (policy : PolicyConfig) (distinct : (runs.map PackageRun.name).Nodup) :
    ∃ result, aggregate runs target root = .ok result ∧
      ((evaluate result policy).signal = .fail ↔
        ∃ run ∈ runs, ∃ violation, run.Violates target policy violation) ∧
      (∃ outcomes lints : List (Text × Violation),
        (evaluate result policy).reasons = (outcomes ++ lints).map describe ∧
        (outcomes.Pairwise fun a b => a.1.Before b.1) ∧
        (lints.Pairwise fun a b => a.1.Before b.1) ∧
        (∀ name violation, (name, violation) ∈ outcomes ↔ ∃ status, violation = .outcome status ∧
          ∃ run ∈ runs, run.name = name ∧ run.Violates target policy violation) ∧
        ∀ name violation, (name, violation) ∈ lints ↔ ∃ rule, violation = .reports rule ∧
          ∃ run ∈ runs, run.name = name ∧ run.Violates target policy violation) ∧
      ((evaluate result policy).unknownExpected.Pairwise Text.Before ∧
        ∀ name, name ∈ (evaluate result policy).unknownExpected ↔
          name ∈ policy.expectedClean ∧ name ∉ runs.map PackageRun.name) ∧
      ∀ stricter, Stricter policy stricter → (evaluate result policy).signal = .fail →
        (evaluate result stricter).signal = .fail := by
  obtain ⟨m, covers, merged⟩ := aggregate_covers runs target root distinct
  refine ⟨m.result target root, merged, ?_, ?_, ?_, ?_⟩
  · rw [fail_iff]
    constructor
    · rintro ⟨⟨name, violation⟩, held⟩
      rcases List.mem_append.mp held with outcome | lint
      · obtain ⟨-, -, run, present, -, blamed⟩ :=
          (mem_byOutcome_result covers root name violation).mp outcome
        exact ⟨run, present, violation, blamed⟩
      · obtain ⟨-, -, run, present, -, blamed⟩ :=
          (mem_byLint_result covers root name violation).mp lint
        exact ⟨run, present, violation, blamed⟩
    · rintro ⟨run, present, violation, blamed⟩
      refine ⟨(run.name, violation), List.mem_append.mpr ?_⟩
      cases violation with
      | outcome status =>
        exact .inl ((mem_byOutcome_result covers root _ _).mpr
          ⟨status, rfl, run, present, rfl, blamed⟩)
      | reports rule =>
        exact .inr ((mem_byLint_result covers root _ _).mpr ⟨rule, rfl, run, present, rfl, blamed⟩)
  · exact ⟨byOutcome (m.result target root) policy, byLint (m.result target root) policy,
      reasons_eq _ _, byOutcome_ascends _ _, byLint_ascends _ _,
      mem_byOutcome_result covers root, mem_byLint_result covers root⟩
  · refine ⟨(sortedSet_ascends policy.expectedClean).filter _, fun name => ?_⟩
    rw [evaluate, List.mem_filter, mem_sortedSet, Merged.result, covers.packages]
    simp
  · intro stricter more failed
    obtain ⟨violation, held⟩ := (fail_iff _ _).mp failed
    exact (fail_iff _ _).mpr ⟨violation, mem_of_stricter _ more violation held⟩

open Gate in
/-- A package that crashed although it was expected to be clean, and that reports the lint. -/
theorem gate_blames_crashed :
    let finding : Diagnostic :=
      { package := "demo", rule := "a", severity := .warning, message := "m" }
    let run : PackageRun :=
      { package := { name := "demo", path := Path.ofText "/crates/demo" }
        invocation := { package := "demo", command := [], returncode := none, status := .crashed }
        parsed := { diagnostics := [finding] } }
    let policy : PolicyConfig := { expectedClean := ["demo", "gone"] }
    ∃ result, aggregate [run] (some "a") (Path.ofText "/crates") = .ok result ∧
      (evaluate result policy).signal = .fail ∧ ("gone" : Text) ∈ (evaluate result policy).unknownExpected ∧
      describe ("demo", .outcome .crashed) ∈ (evaluate result policy).reasons ∧
      describe ("demo", .reports "a") ∈ (evaluate result policy).reasons := by
  intro finding run policy
  obtain ⟨result, merged, fails, ⟨outcomes, lints, reasons, -, -, ended, reported⟩, ⟨-, unknown⟩, -⟩ :=
    gate_blames_runs [run] (some "a") (Path.ofText "/crates") policy (by simp)
  have crashed : run.Violates (some "a") policy (.outcome .crashed) := .crashed rfl
  have unclean : run.Violates (some "a") policy (.reports "a") :=
    .unclean "a" rfl List.mem_cons_self ⟨finding, by decide, rfl, by decide⟩
  refine ⟨result, merged, fails.mpr ⟨run, List.mem_cons_self, _, crashed⟩, ?_, ?_, ?_⟩
  · exact (unknown "gone").mpr (by decide)
  · rw [reasons]
    apply List.mem_map_of_mem
    exact List.mem_append_left _
      ((ended "demo" _).mpr ⟨_, rfl, run, List.mem_cons_self, rfl, crashed⟩)
  · rw [reasons]
    apply List.mem_map_of_mem
    exact List.mem_append_right _
      ((reported "demo" _).mpr ⟨_, rfl, run, List.mem_cons_self, rfl, unclean⟩)

end LintCorpus
