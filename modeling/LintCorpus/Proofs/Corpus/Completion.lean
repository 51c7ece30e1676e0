import LintCorpus.Corpus.Run
import LintCorpus.Corpus.Workers
import LintCorpus.Proofs.Aggregate.Packages
import LintCorpus.Proofs.Catalog
import LintCorpus.Proofs.Sorting
import Mathlib.Data.List.Perm.Basic

/-!
The order in which runs end. Whatever workers do, each package is run once, and the runs are merged
in the order of the catalog, so the result does not tell which of them ended first.
-/
namespace LintCorpus

namespace Workers

variable {lint : Package → PackageRun} {s next : Workers}

/-- The runs that are recorded, with those still to come. -/
def tally (lint : Package → PackageRun) (s : Workers) : List PackageRun :=
  s.context.recorded ++ (s.atWork ++ s.waiting).map lint

theorem take_eq_some (moved : s.take = some next) :
    ∃ package rest, s.waiting = package :: rest ∧
      next = { s with waiting := rest, atWork := s.atWork ++ [package] } := by
  rw [take] at moved
  split at moved
  · cases moved
  · next package rest waiting =>
    split at moved
    · exact ⟨package, rest, waiting, (Option.some.inj moved).symm⟩
    · cases moved

theorem record_eq_some {position : Nat} (moved : s.record lint position = some next) :
    ∃ inside : position < s.atWork.length,
      next = { s with
        atWork := s.atWork.eraseIdx position
        context := s.context.record (lint s.atWork[position]) } := by
  obtain ⟨package, found, rfl⟩ := Option.map_eq_some_iff.mp moved
  obtain ⟨inside, rfl⟩ := List.getElem?_eq_some_iff.mp found
  exact ⟨inside, rfl⟩

theorem tally_step {shift : Shift} (moved : s.step lint shift = some next) :
    (next.tally lint).Perm (s.tally lint) := by
  cases shift with
  | take =>
    obtain ⟨package, rest, waiting, rfl⟩ := take_eq_some moved
    simp [tally, waiting]
  | record position =>
    obtain ⟨inside, rfl⟩ := record_eq_some moved
    have busy := (List.getElem_cons_eraseIdx_perm inside).map lint
    simp only [tally, RunContext.record, List.map_append, List.append_assoc]
    exact (busy.append_right _).append_left _

theorem tally_run {shifts : List Shift} (ended : s.run lint shifts = some next) :
    (next.tally lint).Perm (s.tally lint) := by
  induction shifts generalizing s with
  | nil =>
    obtain rfl : s = next := Option.some.inj ended
    exact .refl _
  | cons shift rest ih =>
    obtain ⟨middle, moved, later⟩ := Option.bind_eq_some_iff.mp ended
    exact (ih later).trans (tally_step moved)

theorem ofJobs_eq_ok {jobs : Int} {packages : List Package} :
    ofJobs jobs packages = .ok s ↔
      1 ≤ jobs ∧ s = { waiting := packages, context := { jobs, isEntered := true } } := by
  rw [ofJobs, RunContext.ofJobs]
  by_cases few : jobs < 1
  · rw [if_pos few]
    exact ⟨nofun, fun ⟨enough, _⟩ => absurd few (by omega)⟩
  · rw [if_neg few]
    constructor
    · intro begun
      exact ⟨by omega, (Except.ok.inj begun).symm⟩
    · rintro ⟨-, rfl⟩
      rfl

variable {jobs : Int} {packages : List Package} {recorded : List PackageRun}

theorem Records.perm (made : Records lint jobs packages recorded) :
    recorded.Perm (packages.map lint) := by
  obtain ⟨begun, shifts, done, started, ended, idle, rfl⟩ := made
  obtain ⟨-, rfl⟩ := ofJobs_eq_ok.mp started
  have whole := tally_run ended
  rw [isDone, Bool.and_eq_true, List.isEmpty_iff, List.isEmpty_iff] at idle
  simpa [tally, idle.1, idle.2] using whole

theorem run_cons (shift : Shift) (rest : List Shift) :
    s.run lint (shift :: rest) = (s.step lint shift).bind fun next => next.run lint rest := rfl

theorem exists_done (lint : Package → PackageRun) (s : Workers) (staffed : 1 ≤ s.context.jobs) :
    ∃ shifts done, s.run lint shifts = some done ∧ done.isDone = true := by
  rcases busy : s.atWork with _ | ⟨package, others⟩
  · rcases waiting : s.waiting with _ | ⟨package, rest⟩
    · exact ⟨[], s, rfl, by simp [isDone, busy, waiting]⟩
    · let next : Workers := { s with waiting := rest, atWork := s.atWork ++ [package] }
      have moved : s.step lint .take = some next := by
        rw [step, take, waiting]
        exact if_pos (by simp [busy]; omega)
      obtain ⟨shifts, done, ended, idle⟩ := exists_done lint next staffed
      exact ⟨.take :: shifts, done, by rw [run_cons, moved]; exact ended, idle⟩
  · let next : Workers :=
      { s with atWork := others, context := s.context.record (lint package) }
    have moved : s.step lint (.record 0) = some next := by
      rw [step, record, busy]
      rfl
    obtain ⟨shifts, done, ended, idle⟩ := exists_done lint next staffed
    exact ⟨.record 0 :: shifts, done, by rw [run_cons, moved]; exact ended, idle⟩
termination_by 2 * s.waiting.length + s.atWork.length
decreasing_by
  · simp only [busy, waiting, List.nil_append, List.length_cons, List.length_nil]
    omega
  · simp only [busy, List.length_cons]
    omega

theorem exists_records (staffed : 1 ≤ jobs) (packages : List Package) :
    ∃ recorded, Records lint jobs packages recorded := by
  obtain ⟨shifts, done, ended, idle⟩ := exists_done lint
    { waiting := packages, context := { jobs, isEntered := true } } staffed
  exact ⟨_, _, shifts, done, ofJobs_eq_ok.mpr ⟨staffed, rfl⟩, ended, idle, rfl⟩

private theorem run_append (front back : List Shift) :
    s.run lint (front ++ back) = (s.run lint front).bind fun next => next.run lint back := by
  rw [run, List.foldlM_append]
  rfl

private theorem run_takes (lint : Package → PackageRun) (s : Workers)
    (staffed : s.atWork.length + s.waiting.length ≤ s.context.jobs) :
    s.run lint (s.waiting.map fun _ => .take) =
      some { s with waiting := [], atWork := s.atWork ++ s.waiting } := by
  rcases s with ⟨waiting, atWork, context⟩
  induction waiting generalizing atWork with
  | nil =>
    rw [List.append_nil]
    rfl
  | cons package rest ih =>
    simp only [List.length_cons, Nat.cast_add, Nat.cast_one] at staffed
    have moved : step lint ⟨package :: rest, atWork, context⟩ .take =
        some ⟨rest, atWork ++ [package], context⟩ := if_pos (by dsimp only; omega)
    rw [List.map_cons, run_cons, moved, Option.bind_some, ih]
    · rw [List.append_assoc, List.singleton_append]
    · simp only [List.length_append, List.length_cons, List.length_nil, Nat.cast_add]
      omega

private theorem run_records (s : Workers) (idle : s.waiting = [])
    (order : recorded.Perm (s.atWork.map lint)) :
    ∃ shifts done, s.run lint shifts = some done ∧ done.isDone = true ∧
      done.context.recorded = s.context.recorded ++ recorded := by
  induction recorded generalizing s with
  | nil =>
    have free : s.atWork = [] := List.map_eq_nil_iff.mp order.nil_eq.symm
    exact ⟨[], s, rfl, by simp [isDone, idle, free], (List.append_nil _).symm⟩
  | cons first later ih =>
    obtain ⟨package, present, rfl⟩ := List.mem_map.mp (order.subset List.mem_cons_self)
    obtain ⟨position, inside, rfl⟩ := List.getElem_of_mem present
    let next : Workers :=
      { s with
        atWork := s.atWork.eraseIdx position
        context := s.context.record (lint s.atWork[position]) }
    have moved : s.step lint (.record position) = some next := by
      rw [step, record, List.getElem?_eq_getElem inside]
      rfl
    have others : later.Perm (next.atWork.map lint) := by
      have split := (List.getElem_cons_eraseIdx_perm inside).map lint
      exact (order.trans split.symm).cons_inv
    obtain ⟨shifts, done, ended, free, listed⟩ := ih next idle others
    refine ⟨.record position :: shifts, done, ?_, free, ?_⟩
    · rw [run_cons, moved]
      exact ended
    · rw [listed]
      exact List.append_assoc _ _ _

/-- Workers enough for all packages can record the runs in every order. -/
theorem records_of_perm (staffed : 1 ≤ jobs) (enough : packages.length ≤ jobs)
    (order : recorded.Perm (packages.map lint)) : Records lint jobs packages recorded := by
  let begun : Workers := { waiting := packages, context := { jobs, isEntered := true } }
  have taken := run_takes lint begun (by simpa [begun] using enough)
  obtain ⟨shifts, done, ended, idle, listed⟩ :=
    run_records { begun with waiting := [], atWork := packages } rfl order
  refine ⟨begun, begun.waiting.map (fun _ => .take) ++ shifts, done,
    ofJobs_eq_ok.mpr ⟨staffed, rfl⟩, ?_, idle, listed⟩
  rw [run_append, taken]
  exact ended

end Workers

namespace Corpus

/-- Runs of distinct packages are put in the order of the packages. -/
theorem inCatalogOrder_of_perm {packages : List Package} {runs recorded : List PackageRun}
    (distinct : (packages.map Package.name).Nodup)
    (aligned : runs.map PackageRun.name = packages.map Package.name)
    (order : recorded.Perm runs) : inCatalogOrder packages recorded = runs := by
  let position (run : PackageRun) : Nat := (packages.map Package.name).idxOf run.name
  let le (a b : PackageRun) : Bool := decide (position a ≤ position b)
  have transitive : ∀ a b c, le a b = true → le b c = true → le a c = true := by
    intro a b c before behind
    simp only [le, decide_eq_true_eq] at before behind ⊢
    exact before.trans behind
  have total : ∀ a b, (le a b || le b a) = true := by
    intro a b
    simp only [le, Bool.or_eq_true, decide_eq_true_eq]
    exact Nat.le_total _ _
  have placed : runs.Pairwise fun a b => le a b = true := by
    suffices ascends : (runs.map PackageRun.name).Pairwise fun a b =>
        decide ((packages.map Package.name).idxOf a ≤ (packages.map Package.name).idxOf b) = true
      from List.pairwise_map.mp ascends
    rw [aligned, List.pairwise_iff_getElem]
    intro i j early late before
    rw [distinct.idxOf_getElem i early, distinct.idxOf_getElem j late, decide_eq_true_eq]
    exact before.le
  have apart : ∀ a ∈ runs, ∀ b ∈ runs, tied le a b = true → a = b := by
    intro a here b there level
    simp only [tied, le, Bool.and_eq_true, decide_eq_true_eq] at level
    have known : a.name ∈ packages.map Package.name := aligned ▸ List.mem_map_of_mem here
    have same : a.name = b.name := (List.idxOf_inj known).mp (level.1.antisymm level.2)
    rw [← aligned] at distinct
    exact List.inj_on_of_nodup_map distinct here there same
  calc inCatalogOrder packages recorded = inCatalogOrder packages runs :=
        (mergeSort_eq_of_perm transitive total order.symm apart).symm
    _ = runs := List.mergeSort_of_pairwise placed

theorem conclude_of_perm {c : Catalog} {runs : List PackageRun}
    (distinct : (c.packages.map Package.name).Nodup)
    (aligned : runs.map PackageRun.name = c.packages.map Package.name)
    (target : Option Text) {r : CorpusResult} (merged : aggregate runs target c.root = .ok r)
    {p : CorpusProgress} (unbroken : p.fault = none) (order : p.recorded.Perm runs) :
    (conclude c target p).result = .ok r := by
  rw [conclude, unbroken]
  dsimp only
  rw [inCatalogOrder_of_perm distinct aligned order, merged]
  rfl

section Sequence

variable {l : Linter} {launch : Launcher}

private theorem name_settled (package : Package) (i : Invocation) :
    (Linter.settled package i).name = package.name := by
  rw [Linter.settled]
  split <;> rfl

private theorem name_of_invokeCommand {t : FileTree} {package : Package} {command : List Text}
    {mode : InvocationMode} {invoked : InvokedPackage}
    (made : (l.invokeCommand launch t package command mode).result = .ok invoked) :
    invoked.package.name = package.name := by
  rw [Linter.invokeCommand] at made
  split at made
  · cases made
  · split at made
    · cases made
    · cases made
      exact name_settled package _

private theorem invoke_some {p q : CorpusProgress} {package : Package} {levels : List Text}
    {mode : InvocationMode} {invoked : InvokedPackage}
    (made : invoke l launch p package levels mode = (q, some invoked)) :
    q.recorded = p.recorded ∧ invoked.package.name = package.name := by
  rw [invoke] at made
  dsimp only at made
  split at made
  · cases made
  · next returned =>
    cases made
    exact ⟨rfl, name_of_invokeCommand returned⟩

private theorem invoke_none {p q : CorpusProgress} {package : Package} {levels : List Text}
    {mode : InvocationMode} (failed : invoke l launch p package levels mode = (q, none)) :
    q.fault.isSome = true := by
  rw [invoke] at failed
  dsimp only at failed
  split at failed
  · cases failed
    rfl
  · cases failed

private theorem orEnd_eq {α : Type} {p : CorpusProgress} {read : Except Json.Excess α}
    {next : α → CorpusProgress} (unbroken : (orEnd p read next).fault = none) :
    ∃ a, orEnd p read next = next a := by
  rcases read with excess | a
  · cases unbroken
  · exact ⟨a, rfl⟩

variable (target checked : Option Text)

theorem lintPackage_recorded (p : CorpusProgress) (package : Package)
    (unbroken : (lintPackage l launch target checked p package).fault = none) :
    ∃ run : PackageRun, run.name = package.name ∧
      (lintPackage l launch target checked p package).recorded = p.recorded ++ [run] := by
  rw [lintPackage] at unbroken ⊢
  dsimp only at unbroken ⊢
  split at unbroken
  · next linted failed =>
    have broken := invoke_none failed
    rw [unbroken] at broken
    cases broken
  · next linted invoked made =>
    obtain ⟨kept, named⟩ := invoke_some made
    obtain ⟨parsed, goes⟩ := orEnd_eq unbroken
    rw [goes] at unbroken ⊢
    split at unbroken
    · refine ⟨_, ?_, congrArg (· ++ _) kept⟩
      exact named
    · next rule =>
      split at unbroken
      · next broke =>
        rw [if_pos broke]
        refine ⟨_, ?_, congrArg (· ++ _) kept⟩
        exact named
      · next built =>
        rw [if_neg built]
        split at unbroken
        · next looked failed =>
          have broken := invoke_none failed
          rw [unbroken] at broken
          cases broken
        · next looked found more =>
          obtain ⟨count, ends⟩ := orEnd_eq unbroken
          rw [ends]
          refine ⟨_, ?_, congrArg (· ++ _) ((invoke_some more).1.trans kept)⟩
          exact named

theorem lintAll_recorded (p : CorpusProgress) (packages : List Package)
    (unbroken : (lintAll l launch target checked p packages).fault = none) :
    (lintAll l launch target checked p packages).recorded.map PackageRun.name =
      p.recorded.map PackageRun.name ++ packages.map Package.name := by
  induction packages generalizing p with
  | nil => exact (List.append_nil _).symm
  | cons package rest ih =>
    rw [lintAll] at unbroken ⊢
    split at unbroken
    · next broken =>
      rw [unbroken] at broken
      cases broken
    · next running =>
      rw [if_neg running]
      have going := Option.not_isSome_iff_eq_none.mp running
      obtain ⟨run, named, listed⟩ := lintPackage_recorded target checked p package going
      rw [ih _ unbroken, listed, List.map_append, List.append_assoc, List.map_singleton, named]
      rfl

end Sequence

def linted (t : FileTree) (launch : Launcher) (program : List Text) (config : RunConfig)
    (c : Catalog) : CorpusProgress :=
  lintAll (linter program c.root config) launch config.targetLint
    (if config.checkAllows then config.targetLint else none)
    { files := t
      messages := c.warnings
      events := [.started (c.packages.map Package.name)] } c.packages

/-- A corpus that is linted to its end has a result, which is its runs merged, and would have the
same one had its runs been recorded in another order. -/
theorem lintCatalog_result (t : FileTree) (launch : Launcher) (program : List Text)
    (config : RunConfig) (c : Catalog) (distinct : (c.packages.map Package.name).Nodup)
    (unbroken : (linted t launch program config c).fault = none) :
    ∃ r, (lintCatalog t launch program config c).result = .ok r ∧
      aggregate (linted t launch program config c).recorded config.targetLint c.root = .ok r ∧
      ∀ p : CorpusProgress, p.fault = none →
        p.recorded.Perm (linted t launch program config c).recorded →
          (conclude c config.targetLint p).result = .ok r := by
  have aligned : (linted t launch program config c).recorded.map PackageRun.name =
      c.packages.map Package.name := lintAll_recorded _ _ _ _ unbroken
  obtain ⟨m, -, merged⟩ := aggregate_covers (linted t launch program config c).recorded
    config.targetLint c.root (aligned ▸ distinct)
  refine ⟨_, conclude_of_perm distinct aligned _ merged unbroken (.refl _), merged, ?_⟩
  exact fun p whole order => conclude_of_perm distinct aligned _ merged whole order

end Corpus

/-- Whatever runs the packages of a corpus come to, and in whatever order any number of workers
records them, each is merged once and in the order of the catalog; workers enough for all packages
can record them in every order. So is what the linter makes of the packages merged, if nothing ends
its run before its time. -/
theorem completion_order_immaterial (t : FileTree) (proper : t.Proper) (root : Path) (c : Catalog)
    (found : Catalog.search t root = .ok c) (lint : Package → PackageRun)
    (named : ∀ package ∈ c.packages, (lint package).name = package.name) (target : Option Text) :
    (∃ r, aggregate (c.packages.map lint) target c.root = .ok r ∧ r.root = c.root ∧
      r.packages = c.packages.map Package.name ∧ r.outcomes.keys = c.packages.map Package.name ∧
      (∀ rule, (r.diagnostics.find? rule).getD [] = c.packages.flatMap fun package =>
        ((lint package).kept target).filter fun d => d.rule == rule) ∧
      (∀ p : CorpusProgress, p.fault = none → p.recorded.Perm (c.packages.map lint) →
        (Corpus.conclude c target p).result = .ok r) ∧
      ∀ jobs : Int, 1 ≤ jobs →
        (∃ recorded, Workers.Records lint jobs c.packages recorded) ∧
        (c.packages.length ≤ jobs → ∀ recorded : List PackageRun,
          recorded.Perm (c.packages.map lint) → Workers.Records lint jobs c.packages recorded) ∧
        ∀ p : CorpusProgress, p.fault = none → Workers.Records lint jobs c.packages p.recorded →
          p.recorded.Perm (c.packages.map lint) ∧ (Corpus.conclude c target p).result = .ok r) ∧
    ∀ (launch : Launcher) (program : List Text) (config : RunConfig),
      let ended := Corpus.linted t launch program config c
      ended.fault = none →
        ∃ r, (Corpus.lintCatalog t launch program config c).result = .ok r ∧
          aggregate ended.recorded config.targetLint c.root = .ok r ∧
          ∀ p : CorpusProgress, p.fault = none → p.recorded.Perm ended.recorded →
            (Corpus.conclude c config.targetLint p).result = .ok r := by
  have distinct := Catalog.nodup_packages proper found
  refine ⟨?_, fun launch program config =>
    Corpus.lintCatalog_result t launch program config c distinct⟩
  have aligned : (c.packages.map lint).map PackageRun.name = c.packages.map Package.name := by
    rw [List.map_map]
    exact List.map_congr_left named
  obtain ⟨m, covers, merged⟩ := aggregate_covers (c.packages.map lint) target c.root
    (aligned ▸ distinct)
  have concluded : ∀ p : CorpusProgress, p.fault = none →
      p.recorded.Perm (c.packages.map lint) → (Corpus.conclude c target p).result = .ok _ :=
    fun p unbroken order => Corpus.conclude_of_perm distinct aligned target merged unbroken order
  refine ⟨m.result target c.root, merged, rfl, covers.packages.trans aligned,
    covers.keys.trans aligned, fun rule => ?_, concluded, fun jobs staffed => ⟨?_, ?_, ?_⟩⟩
  · have filed := covers.find?_rule rule
    rw [List.filter_flatMap, List.flatMap_map] at filed
    exact filed
  · exact Workers.exists_records staffed c.packages
  · exact fun enough recorded order => Workers.records_of_perm staffed enough order
  · exact fun p unbroken made => ⟨made.perm, concluded p unbroken made.perm⟩

/-- Two workers at two packages; the second is done first. -/
theorem completion_order_immaterial_overtaken :
    let t : FileTree :=
      { nodes := [(["crates"], ⟨.directory, 0⟩), (["crates", "a"], ⟨.directory, 0⟩),
          (["crates", "a", "Cargo.toml"], ⟨.file (Utf8.encode "name = 'a'"), 0⟩),
          (["crates", "b"], ⟨.directory, 0⟩),
          (["crates", "b", "Cargo.toml"], ⟨.file (Utf8.encode "name = 'b'"), 0⟩)]
        workingDirectory := Path.ofText "/" }
    let finding (package : Text) : Diagnostic :=
      { package, rule := "x", severity := .warning, message := "m" }
    let lint (package : Package) : PackageRun :=
      { package
        invocation :=
          { package := package.name, command := [], returncode := some 0, status := .lintFindings }
        parsed := { diagnostics := [finding package.name] } }
    t.Proper ∧ ∃ c a b, Catalog.search t (Path.ofText "crates") = .ok c ∧ c.packages = [a, b] ∧
      (lint a).name = "a" ∧ (lint b).name = "b" ∧
      Workers.Records lint 2 c.packages [lint b, lint a] ∧
      ∃ r, (Corpus.conclude c none { files := t, recorded := [lint b, lint a] }).result = .ok r ∧
        (r.diagnostics.find? "x").getD [] = [finding "a", finding "b"] := by
  intro t finding lint
  let here := (Path.ofText "crates").absolute t.workingDirectory
  let a : Package := { name := "a", path := here.child "a" }
  let b : Package := { name := "b", path := here.child "b" }
  have proper : t.Proper := ⟨by decide, by decide⟩
  have searched : Catalog.search t (Path.ofText "crates") =
      .ok ((Catalog.candidates ["a", "b"]).foldl (Catalog.add t) { root := here }) := rfl
  have entries : Catalog.candidates ["a", "b"] = (["a", "b"] : List Text) :=
    congrArg (List.filter _) (List.mergeSort_of_pairwise (by decide))
  rw [entries] at searched
  have packages : ((["a", "b"] : List Text).foldl (Catalog.add t) { root := here }).packages =
      [a, b] := by
    decide +kernel
  have overtaken : Workers.Records lint 2 [a, b] [lint b, lint a] :=
    ⟨_, [.take, .take, .record 1, .record 0], _, rfl, rfl, rfl, rfl⟩
  obtain ⟨⟨r, -, -, -, -, filed, -, concluded⟩, -⟩ := completion_order_immaterial t proper
    (Path.ofText "crates") _ searched lint (fun _ _ => rfl) none
  rw [packages] at filed concluded
  refine ⟨proper, _, a, b, searched, packages, rfl, rfl, packages ▸ overtaken, r, ?_, ?_⟩
  · exact ((concluded 2 (by decide)).2.2 _ rfl overtaken).2
  · rw [filed]
    decide +kernel

end LintCorpus
