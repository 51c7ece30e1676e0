import LintCorpus.Aggregate
import Mathlib.Data.List.Basic

/-!
The findings of one run. One set of keys is shared by all runs, but a key names its package, so what
a run keeps depends on that run alone as long as its package has not been run before.
-/
namespace LintCorpus

namespace Diagnostic

/-- The findings without those whose key has come before. -/
def firstOfEachKey : List Diagnostic → List Diagnostic
  | [] => []
  | d :: rest => d :: (firstOfEachKey rest).filter fun e => e.key != d.key

theorem firstOfEachKey_sublist (ds : List Diagnostic) : (firstOfEachKey ds).Sublist ds := by
  induction ds with
  | nil => exact .slnil
  | cons d rest ih => exact (List.filter_sublist.trans ih).cons_cons d

theorem nodup_firstOfEachKey (ds : List Diagnostic) :
    ((firstOfEachKey ds).map key).Nodup := by
  induction ds with
  | nil => exact List.nodup_nil
  | cons d rest ih =>
    rw [firstOfEachKey, List.map_cons, List.nodup_cons]
    constructor
    · intro repeated
      obtain ⟨e, member, same⟩ := List.mem_map.mp repeated
      have other := (List.mem_filter.mp member).2
      simp [same] at other
    · exact ih.sublist (List.filter_sublist.map key)

theorem exists_firstOfEachKey {ds : List Diagnostic} {d : Diagnostic} (member : d ∈ ds) :
    ∃ e ∈ firstOfEachKey ds, e.key = d.key := by
  induction ds with
  | nil => cases member
  | cons first rest ih =>
    by_cases same : first.key = d.key
    · exact ⟨first, List.mem_cons_self, same⟩
    · have later : d ∈ rest := by
        rcases List.mem_cons.mp member with rfl | later
        · exact absurd rfl same
        · exact later
      obtain ⟨e, inside, equal⟩ := ih later
      refine ⟨e, List.mem_cons_of_mem _ (List.mem_filter.mpr ⟨inside, ?_⟩), equal⟩
      rw [bne_iff_ne, equal]
      exact Ne.symm same

/-- What is left of findings is what comes first with its key. -/
theorem mem_firstOfEachKey {ds : List Diagnostic} {d : Diagnostic} : d ∈ firstOfEachKey ds ↔
    ∃ front back, ds = front ++ d :: back ∧ ∀ e ∈ front, e.key ≠ d.key := by
  induction ds with
  | nil => simp [firstOfEachKey]
  | cons first rest ih =>
    rw [firstOfEachKey, List.mem_cons, List.mem_filter, ih, bne_iff_ne]
    constructor
    · rintro (rfl | ⟨⟨front, back, rfl, apart⟩, other⟩)
      · exact ⟨[], rest, rfl, nofun⟩
      · exact ⟨first :: front, back, rfl, List.forall_mem_cons.mpr ⟨Ne.symm other, apart⟩⟩
    · rintro ⟨front, back, cut, apart⟩
      rcases front with - | ⟨head, front⟩
      · exact .inl (List.cons.inj cut).1.symm
      · obtain ⟨rfl, rfl⟩ := List.cons.inj cut
        obtain ⟨here, later⟩ := List.forall_mem_cons.mp apart
        exact .inr ⟨⟨front, back, rfl, later⟩, Ne.symm here⟩

end Diagnostic

namespace Sifted

def unseen (seen : List DiagnosticKey) (package : Text) (ds : List Diagnostic) : List Diagnostic :=
  (Diagnostic.firstOfEachKey (ds.filter fun d => d.package == package)).filter
    fun d => !seen.contains d.key

variable (seen : List DiagnosticKey) {package : Text} {d : Diagnostic} (ds : List Diagnostic)

private theorem unseen_foreign (foreign : d.package ≠ package) :
    unseen seen package (d :: ds) = unseen seen package ds := by
  rw [unseen, List.filter_cons_of_neg (by simpa using foreign), unseen]

private theorem unseen_repeated (own : d.package = package) (met : d.key ∈ seen) :
    unseen seen package (d :: ds) = unseen seen package ds := by
  rw [unseen, List.filter_cons_of_pos (by simpa using own), Diagnostic.firstOfEachKey,
    List.filter_cons_of_neg (by simpa using met), List.filter_filter, unseen]
  apply List.filter_congr
  intro e _
  by_cases same : e.key = d.key
  · simp [same, met]
  · simp [same]

private theorem unseen_new (own : d.package = package) (new : d.key ∉ seen) :
    unseen seen package (d :: ds) = d :: unseen (d.key :: seen) package ds := by
  rw [unseen, List.filter_cons_of_pos (by simpa using own), Diagnostic.firstOfEachKey,
    List.filter_cons_of_pos (by simpa using new), List.filter_filter, unseen]
  congr 1
  apply List.filter_congr
  intro e _
  by_cases same : e.key = d.key <;> simp [same]

/-- Going over findings keeps and counts the new ones of the package and warns about the others. -/
theorem foldl_add (target : Option Text) (s : Sifted) :
    ds.foldl (add target package) s =
      { seen := ((unseen s.seen package ds).map Diagnostic.key).reverse ++ s.seen
        kept := s.kept ++ (unseen s.seen package ds).filter (Diagnostic.matchesTarget target)
        filteredOut := s.filteredOut +
          (unseen s.seen package ds).countP fun d => !d.matchesTarget target
        messages := s.messages ++
          (ds.filter fun d => d.package != package).map (discarded package) } := by
  -- A finding that is kept or counted puts its key before the rest, hence any state `s`.
  induction ds generalizing s with
  | nil => simp [unseen, Diagnostic.firstOfEachKey]
  | cons d rest ih =>
    rw [List.foldl_cons, ih]
    by_cases own : d.package = package
    · have silent : ((d :: rest).filter fun e => e.package != package) =
          rest.filter fun e => e.package != package :=
        List.filter_cons_of_neg (by simpa using own)
      by_cases met : d.key ∈ s.seen
      · have step : add target package s d = s := by
          rw [add, if_neg (not_not.mpr own), if_pos (by simpa using met)]
        rw [step, unseen_repeated s.seen rest own met, silent]
      · rw [unseen_new s.seen rest own met, silent, add, if_neg (not_not.mpr own),
          if_neg (by simpa using met)]
        cases passes : d.matchesTarget target with
        | true => simp [passes]
        | false =>
          have counted := List.countP_cons_of_pos (p := fun d => !Diagnostic.matchesTarget target d)
            (a := d) (l := unseen (d.key :: s.seen) package rest) (by simp [passes])
          rw [counted, List.filter_cons_of_neg (by simp [passes])]
          simp [Int.add_assoc, Int.add_comm 1]
    · have step : add target package s d =
          { s with messages := s.messages ++ [discarded package d] } := by
        rw [add, if_pos own]
      rw [step, unseen_foreign s.seen rest own,
        List.filter_cons_of_pos (by simpa using own)]
      simp

end Sifted

namespace PackageRun

/-- The findings attributed to the package itself, each key once. -/
def ownDiagnostics (run : PackageRun) : List Diagnostic :=
  Diagnostic.firstOfEachKey (run.parsed.lintDiagnostics.filter fun d => d.package == run.name)

def kept (target : Option Text) (run : PackageRun) : List Diagnostic :=
  run.ownDiagnostics.filter (Diagnostic.matchesTarget target)

def warnings (run : PackageRun) : List Message :=
  (run.parsed.lintDiagnostics.filter fun d => d.package != run.name).map
    (Sifted.discarded run.name)

def filteredOut (target : Option Text) (run : PackageRun) : Int :=
  run.ownDiagnostics.length - (run.kept target).length

variable (target : Option Text) (run : PackageRun)

theorem package_of_mem_ownDiagnostics {run : PackageRun} {d : Diagnostic}
    (member : d ∈ run.ownDiagnostics) : d.package = run.name := by
  have inside := (Diagnostic.firstOfEachKey_sublist _).mem member
  simpa using (List.mem_filter.mp inside).2

/-- Of the findings that are no errors of the compiler and are attributed to the package itself, the
first with each key counts. -/
theorem mem_ownDiagnostics {run : PackageRun} {d : Diagnostic} : d ∈ run.ownDiagnostics ↔
    ∃ front back, run.parsed.diagnostics = front ++ d :: back ∧ d.isCompilerError = false ∧
      d.package = run.name ∧ ∀ e ∈ front, e.isCompilerError = false → e.key ≠ d.key := by
  rw [ownDiagnostics, Parsed.lintDiagnostics, List.filter_filter, Diagnostic.mem_firstOfEachKey]
  constructor
  · rintro ⟨others, behind, listed, apart⟩
    obtain ⟨early, late, cut, rfl, more⟩ := List.filter_eq_append_iff.mp listed
    obtain ⟨skipped, back, rfl, foreign, own, -⟩ := List.filter_eq_cons_iff.mp more
    simp only [Bool.and_eq_true, beq_iff_eq, Bool.not_eq_true'] at own foreign
    refine ⟨early ++ skipped, back, by rw [cut, List.append_assoc], own.2, own.1, ?_⟩
    intro e member plain same
    have package : e.package = run.name := (congrArg DiagnosticKey.package same).trans own.1
    rcases List.mem_append.mp member with before | between
    · exact apart e (List.mem_filter.mpr ⟨before, by simp [package, plain]⟩) same
    · exact foreign e between ⟨package, plain⟩
  · rintro ⟨front, back, cut, plain, own, apart⟩
    rw [cut, List.filter_append, List.filter_cons_of_pos (by simp [own, plain])]
    refine ⟨_, _, rfl, fun e member => ?_⟩
    obtain ⟨before, kind⟩ := List.mem_filter.mp member
    simp only [Bool.and_eq_true, Bool.not_eq_true'] at kind
    exact apart e before kind.2

theorem mem_kept {target : Option Text} {run : PackageRun} {d : Diagnostic} :
    d ∈ run.kept target ↔ d ∈ run.ownDiagnostics ∧ ∀ rule, target = some rule → d.rule = rule := by
  rw [kept, List.mem_filter]
  refine and_congr_right fun _ => ?_
  cases target with
  | none => exact iff_of_true rfl nofun
  | some rule => simp [Diagnostic.matchesTarget]

/-- What of a run's findings is looked at, and what of that is kept. -/
structure Sieved (run : PackageRun) (target : Option Text) : Prop where
  own : ∀ d, d ∈ run.ownDiagnostics ↔
    ∃ front back, run.parsed.diagnostics = front ++ d :: back ∧ d.isCompilerError = false ∧
      d.package = run.name ∧ ∀ e ∈ front, e.isCompilerError = false → e.key ≠ d.key
  kept : ∀ d, d ∈ run.kept target ↔
    d ∈ run.ownDiagnostics ∧ ∀ rule, target = some rule → d.rule = rule
  once : (run.ownDiagnostics.map Diagnostic.key).Nodup
  ordered : run.ownDiagnostics.Sublist run.parsed.diagnostics ∧
    (run.kept target).Sublist run.ownDiagnostics

theorem sieved : run.Sieved target where
  own _ := mem_ownDiagnostics
  kept _ := mem_kept
  once := Diagnostic.nodup_firstOfEachKey _
  ordered := ⟨(Diagnostic.firstOfEachKey_sublist _).trans
    (List.filter_sublist.trans List.filter_sublist), List.filter_sublist⟩

theorem package_of_mem_kept {target : Option Text} {run : PackageRun} {d : Diagnostic}
    (member : d ∈ run.kept target) : d.package = run.name :=
  package_of_mem_ownDiagnostics (List.mem_filter.mp member).1

theorem nodup_kept : ((run.kept target).map Diagnostic.key).Nodup :=
  (Diagnostic.nodup_firstOfEachKey _).sublist (List.filter_sublist.map Diagnostic.key)

/-- Nothing is kept if and only if no finding of the package passes the target lint. -/
theorem kept_eq_nil : run.kept target = [] ↔ ∀ d ∈ run.parsed.lintDiagnostics,
    d.package = run.name → d.matchesTarget target = false := by
  rw [kept, List.filter_eq_nil_iff]
  constructor
  · -- The finding itself may have been dropped, but then one with its key, so its rule, was not.
    intro none d member same
    have own : d ∈ run.parsed.lintDiagnostics.filter fun d => d.package == run.name :=
      List.mem_filter.mpr ⟨member, by simpa using same⟩
    obtain ⟨e, inside, equal⟩ := Diagnostic.exists_firstOfEachKey own
    have rules : e.rule = d.rule := congrArg DiagnosticKey.rule equal
    have refused := none e inside
    rwa [Diagnostic.matchesTarget, rules, Bool.not_eq_true] at refused
  · intro none d member
    have inside := List.mem_filter.mp ((Diagnostic.firstOfEachKey_sublist _).mem member)
    have refused := none d inside.1 (by simpa using inside.2)
    simp [refused]

theorem kept_none {run : PackageRun} : run.kept none = run.ownDiagnostics :=
  List.filter_eq_self.mpr fun _ _ => rfl

theorem filteredOut_eq_countP : run.filteredOut target =
    run.ownDiagnostics.countP fun d => !d.matchesTarget target := by
  have both := List.length_eq_countP_add_countP (Diagnostic.matchesTarget target)
    (l := run.ownDiagnostics)
  rw [filteredOut, kept, ← List.countP_eq_length_filter]
  simp only [Bool.not_eq_true] at both
  have same : (fun d => decide (Diagnostic.matchesTarget target d = false)) =
      fun d => !Diagnostic.matchesTarget target d := by
    funext d
    cases Diagnostic.matchesTarget target d <;> rfl
  rw [same] at both
  omega

end PackageRun

theorem Merged.sift_eq (target : Option Text) (m : Merged) (run : PackageRun)
    (fresh : ∀ key ∈ m.seen, key.package ≠ run.name) :
    m.sift target run =
      { seen := (run.ownDiagnostics.map Diagnostic.key).reverse ++ m.seen
        kept := run.kept target
        filteredOut := run.filteredOut target
        messages := m.messages ++ run.warnings } := by
  -- The keys of earlier runs name other packages, so the shared set drops nothing here.
  have all : Sifted.unseen m.seen run.name run.parsed.lintDiagnostics = run.ownDiagnostics := by
    apply List.filter_eq_self.mpr
    intro d member
    have own : d.package = run.name := PackageRun.package_of_mem_ownDiagnostics member
    simp only [Bool.not_eq_true', List.contains_eq_mem, decide_eq_false_iff_not]
    exact fun met => fresh d.key met own
  rw [sift, Sifted.foldl_add, all, PackageRun.filteredOut_eq_countP]
  simp [PackageRun.kept, PackageRun.warnings]

end LintCorpus
