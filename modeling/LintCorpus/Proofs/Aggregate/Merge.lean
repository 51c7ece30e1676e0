import LintCorpus.Proofs.Aggregate.Findings
import LintCorpus.Proofs.Aggregate.Valid
import LintCorpus.Proofs.Dict

/-!
Merging runs. As long as no package is run twice, each run adds its own findings, outcome and
warnings to what the runs before it came to, and the result is valid.
-/
namespace LintCorpus

namespace Merged

/-- Findings that are distinct within every part are distinct if their keys tell the parts apart. -/
private theorem nodup_keys_flatMap {α : Type} {parts : List α} {findings : α → List Diagnostic}
    (mark : DiagnosticKey → Text) (own : α → Text) (apart : (parts.map own).Nodup)
    (each : ∀ part ∈ parts, ((findings part).map Diagnostic.key).Nodup)
    (marked : ∀ part ∈ parts, ∀ d ∈ findings part, mark d.key = own part) :
    ((parts.flatMap findings).map Diagnostic.key).Nodup := by
  rw [List.map_flatMap, List.Nodup, List.pairwise_flatMap]
  refine ⟨each, List.Pairwise.imp_of_mem ?_ (List.pairwise_map.mp apart)⟩
  rintro first second here there differ _ left _ right rfl
  obtain ⟨d, inside, rfl⟩ := List.mem_map.mp left
  obtain ⟨e, outside, same⟩ := List.mem_map.mp right
  rw [← marked first here d inside, ← marked second there e outside, same] at differ
  exact differ rfl

variable (target : Option Text) (rule : Text)

theorem fileAll_append (byRule : Dict (List Diagnostic)) (front back : List Diagnostic) :
    fileAll byRule (front ++ back) = fileAll (fileAll byRule front) back := List.foldl_append

theorem find?_fileAll (byRule : Dict (List Diagnostic)) (ds : List Diagnostic) :
    ((fileAll byRule ds).find? rule).getD [] =
      (byRule.find? rule).getD [] ++ ds.filter fun d => d.rule == rule := by
  induction ds generalizing byRule with
  | nil => simp [fileAll]
  | cons d rest ih =>
    have step : fileAll byRule (d :: rest) =
        fileAll (byRule.insert d.rule ((byRule.find? d.rule).getD [] ++ [d])) rest := rfl
    rw [step, ih, Dict.find?_insert]
    by_cases same : d.rule = rule
    · subst same
      simp
    · rw [if_neg (Ne.symm same), List.filter_cons_of_neg (by simpa using same)]

theorem mem_keys_fileAll (byRule : Dict (List Diagnostic)) (ds : List Diagnostic) :
    rule ∈ (fileAll byRule ds).keys ↔ rule ∈ byRule.keys ∨ ∃ d ∈ ds, d.rule = rule := by
  induction ds generalizing byRule with
  | nil => simp [fileAll]
  | cons d rest ih =>
    have step : fileAll byRule (d :: rest) =
        fileAll (byRule.insert d.rule ((byRule.find? d.rule).getD [] ++ [d])) rest := rfl
    rw [step, ih, Dict.mem_keys_insert, List.exists_mem_cons_iff, eq_comm, or_assoc, or_left_comm]

theorem eq_of_mem_fileAll {ds es : List Diagnostic}
    (member : (rule, es) ∈ (fileAll .empty ds).entries) :
    es = ds.filter fun d => d.rule == rule := by
  have given := find?_fileAll rule .empty ds
  rw [(Dict.find?_eq_some _ _).mpr member] at given
  exact given

theorem nodup_keys_fileAll {ds : List Diagnostic} (distinct : (ds.map Diagnostic.key).Nodup) :
    ((fileAll .empty ds).values.flatten.map Diagnostic.key).Nodup := by
  rw [Dict.values, ← List.flatMap_def]
  refine nodup_keys_flatMap DiagnosticKey.rule Prod.fst (fileAll .empty ds).distinct ?_ ?_
  · rintro ⟨name, es⟩ member
    rw [eq_of_mem_fileAll name member]
    exact distinct.sublist (List.filter_sublist.map Diagnostic.key)
  · rintro ⟨name, es⟩ member d inside
    rw [eq_of_mem_fileAll name member] at inside
    have filed : d.rule = name := by simpa using (List.mem_filter.mp inside).2
    exact filed

/-- What has been merged is what the runs amount to one by one. -/
structure Covers (m : Merged) (runs : List PackageRun) : Prop where
  packages : m.packages = runs.map PackageRun.name
  outcomes : m.outcomes.entries = runs.map fun run =>
    (run.name, run.outcome (run.kept target) (run.filteredOut target))
  byRule : m.byRule = fileAll .empty (runs.flatMap (PackageRun.kept target))
  seen : ∀ key ∈ m.seen, key.package ∈ m.packages
  messages : m.messages = runs.flatMap PackageRun.warnings

theorem covers_nil : Covers target {} [] := ⟨rfl, rfl, rfl, by simp, rfl⟩

variable {target} {m : Merged} {runs : List PackageRun}

theorem Covers.keys (covers : Covers target m runs) :
    m.outcomes.keys = runs.map PackageRun.name := by
  rw [Dict.keys, covers.outcomes, List.map_map]
  rfl

theorem Covers.add (covers : Covers target m runs) (run : PackageRun)
    (new : run.name ∉ runs.map PackageRun.name) :
    Covers target (m.add target run) (runs ++ [run]) := by
  have sifted := sift_eq target m run fun key met same => by
    have known := covers.seen key met
    rw [covers.packages, same] at known
    exact new known
  have absent : run.name ∉ m.outcomes.keys := by rwa [covers.keys]
  constructor
  · simp [Merged.add, covers.packages]
  · simp [Merged.add, sifted, Dict.entries_insert _ _ _ absent, covers.outcomes]
  · simp [Merged.add, sifted, covers.byRule, fileAll_append]
  · intro key met
    simp only [Merged.add, sifted, List.mem_append, List.mem_reverse, List.mem_singleton] at met ⊢
    rcases met with here | before
    · obtain ⟨d, member, rfl⟩ := List.mem_map.mp here
      exact .inr (PackageRun.package_of_mem_ownDiagnostics member)
    · exact .inl (covers.seen key before)
  · simp [Merged.add, sifted, covers.messages]

/-- Merging goes on up to the first package that is run again. -/
theorem addAll_spec (covers : Covers target m runs) (distinct : (runs.map PackageRun.name).Nodup)
    (rest : List PackageRun) :
    ((addAll target m rest).2 = none ∧ ((runs ++ rest).map PackageRun.name).Nodup ∧
        Covers target (addAll target m rest).1 (runs ++ rest)) ∨
      ∃ front run back, rest = front ++ run :: back ∧
        ((runs ++ front).map PackageRun.name).Nodup ∧
        run.name ∈ (runs ++ front).map PackageRun.name ∧
        (addAll target m rest).2 = some run.name ∧
        Covers target (addAll target m rest).1 (runs ++ front) := by
  -- `Covers` is the invariant: `runs` is what has been merged before `rest`.
  induction rest generalizing m runs with
  | nil => exact .inl ⟨rfl, by simpa using distinct, by simpa [addAll] using covers⟩
  | cons run rest ih =>
    by_cases again : run.name ∈ runs.map PackageRun.name
    · have stop : addAll target m (run :: rest) = (m, some run.name) := by
        rw [addAll, if_pos]
        rwa [Dict.contains_iff, covers.keys]
      refine .inr ⟨[], run, rest, rfl, by simpa using distinct, by simpa using again, ?_, ?_⟩
      · rw [stop]
      · simpa [stop] using covers
    · have go : addAll target m (run :: rest) = addAll target (m.add target run) rest := by
        rw [addAll, if_neg]
        rwa [Dict.contains_iff, covers.keys]
      have longer : ((runs ++ [run]).map PackageRun.name).Nodup := by
        rw [List.map_append, List.nodup_append]
        refine ⟨distinct, by simp, ?_⟩
        rintro name member _ same rfl
        rw [List.map_singleton, List.mem_singleton] at same
        exact again (same ▸ member)
      rw [go]
      rcases ih (covers.add run again) longer with ⟨done, whole, result⟩ | stopped
      · refine .inl ⟨done, ?_, ?_⟩
        · simpa using whole
        · simpa using result
      · obtain ⟨front, repeated, back, rfl, before, member, told, result⟩ := stopped
        refine .inr ⟨run :: front, repeated, back, rfl, ?_, ?_, told, ?_⟩
        · simpa using before
        · simpa using member
        · simpa using result

theorem Covers.valid (covers : Covers target m runs) (distinct : (runs.map PackageRun.name).Nodup)
    (root : Path) : (m.result target root).Valid := by
  have keys : ((runs.flatMap (PackageRun.kept target)).map Diagnostic.key).Nodup :=
    nodup_keys_flatMap DiagnosticKey.package PackageRun.name distinct
      (fun run _ => PackageRun.nodup_kept target run)
      fun _ _ _ kept => PackageRun.package_of_mem_kept kept
  have filed : ∀ entry ∈ (m.result target root).filed,
      entry.2 ∈ runs.flatMap (PackageRun.kept target) ∧ entry.2.rule = entry.1 := by
    rintro ⟨rule, d⟩ member
    obtain ⟨ds, entry, inside⟩ := (CorpusResult.mem_filed _ rule d).mp member
    have entry : (rule, ds) ∈ m.byRule.entries := entry
    rw [covers.byRule] at entry
    rw [eq_of_mem_fileAll rule entry] at inside
    simpa using List.mem_filter.mp inside
  constructor
  · exact fun entry member => (filed entry member).2
  · intro d member
    rw [← CorpusResult.map_filed] at member
    obtain ⟨entry, inside, rfl⟩ := List.mem_map.mp member
    obtain ⟨run, present, kept⟩ := List.mem_flatMap.mp (filed entry inside).1
    have known : run.name ∈ m.packages := by
      rw [covers.packages]
      exact List.mem_map_of_mem present
    rw [PackageRun.package_of_mem_kept kept]
    exact known
  · have distinctKeys := nodup_keys_fileAll keys
    rwa [← covers.byRule] at distinctKeys

end Merged

open Merged in
/-- Runs of distinct packages are merged into a result that covers them, and it is valid. -/
theorem aggregate_covers (runs : List PackageRun) (target : Option Text) (root : Path)
    (distinct : (runs.map PackageRun.name).Nodup) :
    ∃ m, Covers target m runs ∧ aggregate runs target root = .ok (m.result target root) := by
  rcases addAll_spec (covers_nil target) List.nodup_nil runs with
    ⟨done, -, covers⟩ | ⟨front, run, back, rfl, -, again, -, -⟩
  · refine ⟨(addAll target {} runs).1, covers, ?_⟩
    have checked := (CorpusResult.check_eq_ok _ _).mpr ⟨rfl, covers.valid distinct root⟩
    have cut : addAll target {} runs = ((addAll target {} runs).1, none) := Prod.ext rfl done
    rw [aggregate, cut]
    dsimp only
    rw [checked]
    rfl
  · rw [List.map_append, List.map_cons, List.nodup_append] at distinct
    exact absurd rfl (distinct.2.2 run.name (by simpa using again) run.name List.mem_cons_self)

theorem aggregate_repeated (runs : List PackageRun) (target : Option Text) (root : Path)
    (repeated : ¬(runs.map PackageRun.name).Nodup) :
    ∃ front run back, runs = front ++ run :: back ∧ (front.map PackageRun.name).Nodup ∧
      run.name ∈ front.map PackageRun.name ∧
      aggregate runs target root = .error (.duplicateRun run.name) := by
  rcases Merged.addAll_spec (Merged.covers_nil target) List.nodup_nil runs with
    ⟨-, distinct, -⟩ | ⟨front, run, back, cut, before, again, told, -⟩
  · exact absurd distinct repeated
  · refine ⟨front, run, back, cut, before, again, ?_⟩
    have stopped : Merged.addAll target {} runs =
        ((Merged.addAll target {} runs).1, some run.name) := Prod.ext rfl told
    rw [aggregate, stopped]

/-- Merging tells the warnings of the runs, whatever the target lint. -/
theorem messages_addAll (runs : List PackageRun) (target : Option Text)
    (distinct : (runs.map PackageRun.name).Nodup) :
    (Merged.addAll target {} runs).1.messages = runs.flatMap PackageRun.warnings := by
  rcases Merged.addAll_spec (Merged.covers_nil target) List.nodup_nil runs with
    ⟨-, -, covers⟩ | ⟨front, run, back, rfl, -, again, -, -⟩
  · exact covers.messages
  · rw [List.map_append, List.map_cons, List.nodup_append] at distinct
    exact absurd rfl (distinct.2.2 run.name (by simpa using again) run.name List.mem_cons_self)

/-- Runs can be merged exactly if no package is run twice, and else the first that is run again is
named. The result is valid. It lists the packages and their outcomes in the order of the runs, each
with the number of findings kept and filtered out, and under every rule the findings kept of it, run
after run. -/
theorem aggregate_accounts_for_findings (runs : List PackageRun) (target : Option Text)
    (root : Path) :
    (∀ run ∈ runs, run.Sieved target) ∧
    (¬(runs.map PackageRun.name).Nodup →
      ∃ front run back, runs = front ++ run :: back ∧ (front.map PackageRun.name).Nodup ∧
        run.name ∈ front.map PackageRun.name ∧
        aggregate runs target root = .error (.duplicateRun run.name)) ∧
      ((runs.map PackageRun.name).Nodup → ∃ result, aggregate runs target root = .ok result ∧
        result.Valid ∧ result.root = root ∧ result.targetLint = target ∧
        result.packages = runs.map PackageRun.name ∧
        result.outcomes.keys = runs.map PackageRun.name ∧
        (result.outcomes.values.map fun o => (o.name, o.diagnostics, o.filteredOut)) =
          (runs.map fun run => (run.name, ((run.kept target).length : Int),
            (run.ownDiagnostics.length - (run.kept target).length : Int))) ∧
        (∀ rule, (result.diagnostics.find? rule).getD [] =
          runs.flatMap fun run => (run.kept target).filter fun d => d.rule == rule) ∧
        ∀ rule, rule ∈ result.diagnostics.keys ↔
          ∃ run ∈ runs, ∃ d ∈ run.kept target, d.rule = rule) := by
  refine ⟨fun run _ => run.sieved target, aggregate_repeated runs target root, fun distinct => ?_⟩
  obtain ⟨m, covers, merged⟩ := aggregate_covers runs target root distinct
  refine ⟨m.result target root, merged, covers.valid distinct root, rfl, rfl, covers.packages,
    covers.keys, ?_, ?_, ?_⟩
  · have outcomes : (m.result target root).outcomes.values =
        runs.map fun run => run.outcome (run.kept target) (run.filteredOut target) := by
      rw [Dict.values, Merged.result, covers.outcomes, List.map_map]
      rfl
    rw [outcomes, List.map_map]
    rfl
  · intro rule
    have filed := Merged.find?_fileAll rule .empty (runs.flatMap (PackageRun.kept target))
    rw [← covers.byRule, List.filter_flatMap] at filed
    exact filed
  · intro rule
    have filed := Merged.mem_keys_fileAll rule .empty (runs.flatMap (PackageRun.kept target))
    rw [← covers.byRule] at filed
    simp only [Dict.keys_empty, List.not_mem_nil, false_or, List.mem_flatMap] at filed
    refine filed.trans ⟨?_, ?_⟩
    · rintro ⟨d, ⟨run, present, kept⟩, same⟩
      exact ⟨run, present, d, kept, same⟩
    · rintro ⟨run, present, d, kept, same⟩
      exact ⟨d, ⟨run, present, kept⟩, same⟩

/-- Of a finding met twice, one of another package, an error of the compiler and one of another
rule, the first alone is kept. -/
theorem aggregate_accounts_for_findings_once :
    let finding (package rule : Text) (severity : Severity) : Diagnostic :=
      { package, rule, severity, message := "m" }
    let own := finding "a" "x" .warning
    let run : PackageRun :=
      { package := { name := "a", path := Path.ofText "/crates/a" }
        invocation := { package := "a", command := [], returncode := some 0, status := .lintFindings }
        parsed := { diagnostics := [own, own, finding "b" "x" .warning, finding "a" "E0425" .error,
          finding "a" "y" .warning] } }
    ∃ result, aggregate [run] (some "x") (Path.ofText "/crates") = .ok result ∧
      run.kept (some "x") = [own] ∧ (result.diagnostics.find? "x").getD [] = [own] ∧
      result.diagnostics.keys ⊆ (["x"] : List Text) ∧
      (result.outcomes.values.map fun o => (o.name, o.diagnostics, o.filteredOut)) =
        [(Text.ofString "a", 1, 1)] := by
  intro finding own run
  obtain ⟨-, -, accounted⟩ :=
    aggregate_accounts_for_findings [run] (some "x") (Path.ofText "/crates")
  obtain ⟨result, merged, -, -, -, -, -, counted, filed, rules⟩ := accounted (by decide)
  have kept : run.kept (some "x") = [own] := by decide +kernel
  refine ⟨result, merged, kept, ?_, fun rule present => ?_, ?_⟩
  · rw [filed]
    decide +kernel
  · obtain ⟨other, among, d, inside, rfl⟩ := (rules rule).mp present
    rw [List.mem_singleton.mp among, kept] at inside
    rw [List.mem_singleton.mp inside]
    exact List.mem_singleton.mpr rfl
  · rw [counted]
    decide +kernel

end LintCorpus
