import LintCorpus.Proofs.Diff
import LintCorpus.Proofs.Report.Ties

/-!
The order in which a comparison tells findings. The keys that only one of two results has form a
set, and its members come in no particular order; sorting the findings settles their order as far as
no two of them are sorted to one place. An unknown file, line or column is sorted as an empty file
or as number zero, so findings that differ in nothing else are told in the order in which they came.
-/
namespace LintCorpus

namespace ResultDiff

/-- The finding that has a key. A later one takes the place of an earlier one with the same key. -/
def holder? (r : CorpusResult) (key : DiagnosticKey) : Option Diagnostic :=
  r.allDiagnostics.reverse.find? fun d => d.key == key

/-- The keys that `r` has and `other` has not, each once, in some order. -/
structure Enumerates (other r : CorpusResult) (keys : List DiagnosticKey) : Prop where
  distinct : keys.Nodup
  mem_iff : ∀ key, key ∈ keys ↔ key ∈ r.keys ∧ key ∉ other.keys

def drawn (r : CorpusResult) (keys : List DiagnosticKey) : List Diagnostic :=
  sort (keys.filterMap (holder? r))

/-- What a comparison gives when the keys that are new and those that are gone come in some
order. -/
def Gives (baseline current : CorpusResult) (d : ResultDiff) : Prop :=
  ∃ new gone, Enumerates baseline current new ∧ Enumerates current baseline gone ∧
    d = ⟨drawn current new, drawn baseline gone⟩

def unmatched (other r : CorpusResult) : List Diagnostic :=
  r.allDiagnostics.filter fun d => !(other.allDiagnostics.map Diagnostic.key).contains d.key

theorem compare_eq_iff {a b : Diagnostic} :
    compare a b = .eq ↔ b.package = a.package ∧ b.sortKey = a.sortKey := by
  simp only [compare, Ordering.then_eq_eq, Std.LawfulEqCmp.compare_eq_iff_eq,
    SortKey.compare_eq_iff]
  constructor
  · rintro ⟨package, -, place⟩
    exact ⟨package.symm, place.symm⟩
  · rintro ⟨package, place⟩
    exact ⟨package.symm, (congrArg SortKey.rule place).symm, place.symm⟩

/-- No two of the findings are sorted to one place. -/
def Apart (ds : List Diagnostic) : Prop :=
  ∀ d ∈ ds, ∀ e ∈ ds, e.package = d.package → e.sortKey = d.sortKey → e = d

/-- Findings that are sorted to one place can be shown in either order. -/
def Interchangeable {α : Type} (shown : Diagnostic → List α) (ds : List Diagnostic) : Prop :=
  ∀ d ∈ ds, ∀ e ∈ ds, e.package = d.package → e.sortKey = d.sortKey →
    shown d ++ shown e = shown e ++ shown d

theorem interchangeable_singleton (ds : List Diagnostic) :
    Interchangeable (fun d => [d]) ds ↔ Apart ds := by
  have pair : ∀ d e : Diagnostic, [d] ++ [e] = [e] ++ [d] ↔ e = d := by
    intro d e
    simp [eq_comm]
  exact forall₄_congr fun d _ e _ => imp_congr_right fun _ => imp_congr_right fun _ => pair d e

theorem interchangeable_sort {α : Type} (shown : Diagnostic → List α) (ds : List Diagnostic) :
    Interchangeable shown (sort ds) ↔ Interchangeable shown ds := by
  simp only [Interchangeable, mem_sort]

section Enumeration

variable {other r : CorpusResult}

theorem own_of_perm {ds : List Diagnostic} (moved : ds.Perm (unmatched other r)) :
    ∀ d ∈ ds, d ∈ r.allDiagnostics := fun _ listed => (List.mem_filter.mp (moved.subset listed)).1

theorem perm_of_mem {ds : List Diagnostic} {d e : Diagnostic} (here : d ∈ ds) (there : e ∈ ds)
    (other : e ≠ d) : (d :: e :: (ds.erase d).erase e).Perm ds := by
  have rest := List.perm_cons_erase ((List.mem_erase_of_ne other).mpr there)
  exact (rest.symm.cons d).trans (List.perm_cons_erase here).symm

theorem sort_pair {d e : Diagnostic} (others : List Diagnostic) (together : e.package = d.package)
    (level : e.sortKey = d.sortKey) : ∃ low high, sort (d :: e :: others) = low ++ d :: e :: high ∧
      sort (e :: d :: others) = low ++ e :: d :: high := by
  have one := tied_isLE_iff.mpr (compare_eq_iff.mpr ⟨rfl, rfl⟩ : compare d d = .eq)
  have two := tied_isLE_iff.mpr (compare_eq_iff.mpr ⟨together, level⟩ : compare d e = .eq)
  have first : ([] : List Diagnostic).filter (tied (fun a b => (compare a b).isLE) d) = [] := rfl
  exact ⟨_, _, mergeSort_pair le_trans isLE_total one two first,
    mergeSort_pair le_trans isLE_total two one first⟩

/-- What sorted findings show does not depend on the order they came in, exactly if those that are
sorted to one place can be shown in either order. -/
theorem sort_settled_iff {α : Type} (shown : Diagnostic → List α) (ds : List Diagnostic) :
    (∀ first second : List Diagnostic, first.Perm ds → second.Perm ds →
      (sort first).flatMap shown = (sort second).flatMap shown) ↔ Interchangeable shown ds := by
  constructor
  · intro settled d here e there together level
    by_cases same : e = d
    · rw [same]
    have cut := perm_of_mem here there same
    obtain ⟨low, high, front, back⟩ := sort_pair ((ds.erase d).erase e) together level
    have equal := settled _ _ cut ((List.Perm.swap d e _).trans cut)
    simp only [front, back, List.flatMap_append, List.flatMap_cons,
      List.append_cancel_left_eq] at equal
    rwa [← List.append_assoc, ← List.append_assoc, List.append_cancel_right_eq] at equal
  · intro either first second one two
    apply flatMap_mergeSort_congr le_trans isLE_total (one.trans two.symm)
    intro d here e there level
    obtain ⟨together, place⟩ := compare_eq_iff.mp (tied_isLE_iff.mp level)
    exact either d (one.subset here) e (one.subset there) together place

variable (valid : r.Valid)

include valid

theorem holder?_key {d : Diagnostic} (held : d ∈ r.allDiagnostics) : holder? r d.key = some d := by
  rcases found : holder? r d.key with _ | e
  · rw [holder?, List.find?_eq_none] at found
    exact absurd (beq_self_eq_true d.key) (found d (List.mem_reverse.mpr held))
  · rw [holder?] at found
    have same : e.key = d.key := by simpa using List.find?_some found
    have listed : e ∈ r.allDiagnostics := List.mem_reverse.mp (List.mem_of_find?_eq_some found)
    rw [List.inj_on_of_nodup_map valid.distinct listed held same]

theorem filterMap_holder? {ds : List Diagnostic} (held : ∀ d ∈ ds, d ∈ r.allDiagnostics) :
    (ds.map Diagnostic.key).filterMap (holder? r) = ds := by
  induction ds with
  | nil => rfl
  | cons d rest ih =>
    obtain ⟨here, later⟩ := List.forall_mem_cons.mp held
    rw [List.map_cons, List.filterMap_cons_some (holder?_key valid here), ih later]

theorem enumerates_keys {ds : List Diagnostic} (moved : ds.Perm (unmatched other r)) :
    Enumerates other r (ds.map Diagnostic.key) := by
  have sorted : (missingFrom other r).Perm (unmatched other r) := List.mergeSort_perm _ _
  have keys := (moved.trans sorted.symm).map Diagnostic.key
  exact ⟨keys.nodup_iff.mpr (nodup_keys_missingFrom other r valid),
    fun key => keys.mem_iff.trans (mem_keys_missingFrom other r key)⟩

theorem Enumerates.perm {keys : List DiagnosticKey} (enumerates : Enumerates other r keys) :
    (keys.filterMap (holder? r)).Perm (unmatched other r) := by
  have listed := enumerates_keys valid (List.Perm.refl (unmatched other r))
  have moved : keys.Perm ((unmatched other r).map Diagnostic.key) := by
    rw [List.perm_ext_iff_of_nodup enumerates.distinct listed.distinct]
    exact fun key => (enumerates.mem_iff key).trans (listed.mem_iff key).symm
  have found := moved.filterMap (holder? r)
  rwa [filterMap_holder? valid (own_of_perm (List.Perm.refl _))] at found

end Enumeration

section Gives

variable {baseline current : CorpusResult} (before : baseline.Valid) (after : current.Valid)

include before after

/-- Drawing keys in any order amounts to sorting the findings from any order. -/
theorem gives_iff (d : ResultDiff) : Gives baseline current d ↔
    ∃ new gone : List Diagnostic, new.Perm (unmatched baseline current) ∧
      gone.Perm (unmatched current baseline) ∧ d = ⟨sort new, sort gone⟩ := by
  constructor
  · rintro ⟨new, gone, introduced, resolved, rfl⟩
    exact ⟨_, _, introduced.perm after, resolved.perm before, rfl⟩
  · rintro ⟨new, gone, introduced, resolved, rfl⟩
    refine ⟨_, _, enumerates_keys after introduced, enumerates_keys before resolved, ?_⟩
    rw [drawn, drawn, filterMap_holder? after (own_of_perm introduced),
      filterMap_holder? before (own_of_perm resolved)]

theorem gives_between : Gives baseline current (between baseline current) :=
  (gives_iff before after _).mpr ⟨_, _, .refl _, .refl _, rfl⟩

theorem Gives.perm {c d : ResultDiff} (one : Gives baseline current c)
    (two : Gives baseline current d) :
    c.introduced.Perm d.introduced ∧ c.resolved.Perm d.resolved := by
  obtain ⟨new, gone, introduced, resolved, rfl⟩ := (gives_iff before after c).mp one
  obtain ⟨new', gone', introduced', resolved', rfl⟩ := (gives_iff before after d).mp two
  have sorted : ∀ ds : List Diagnostic, (sort ds).Perm ds := fun ds => List.mergeSort_perm ds _
  exact ⟨(sorted new).trans ((introduced.trans introduced'.symm).trans (sorted new').symm),
    (sorted gone).trans ((resolved.trans resolved'.symm).trans (sorted gone').symm)⟩

/-- What comparisons show of the findings on either side does not depend on the order of the keys,
exactly if on either side findings that are sorted to one place can be shown in either order. -/
theorem gives_settled_iff {α : Type} (shown : Diagnostic → List α) :
    (∀ c d, Gives baseline current c → Gives baseline current d →
      c.introduced.flatMap shown = d.introduced.flatMap shown ∧
        c.resolved.flatMap shown = d.resolved.flatMap shown) ↔
      Interchangeable shown (unmatched baseline current) ∧
        Interchangeable shown (unmatched current baseline) := by
  rw [← sort_settled_iff, ← sort_settled_iff]
  constructor
  · intro settled
    have given : ∀ new gone : List Diagnostic, new.Perm (unmatched baseline current) →
        gone.Perm (unmatched current baseline) → Gives baseline current ⟨sort new, sort gone⟩ :=
      fun new gone introduced resolved =>
        (gives_iff before after _).mpr ⟨new, gone, introduced, resolved, rfl⟩
    exact ⟨fun new new' one two => (settled _ _ (given new _ one (.refl _))
        (given new' _ two (.refl _))).1,
      fun gone gone' one two => (settled _ _ (given _ gone (.refl _) one)
        (given _ gone' (.refl _) two)).2⟩
  · rintro ⟨introduced, resolved⟩ c d one two
    obtain ⟨new, gone, first, last, rfl⟩ := (gives_iff before after c).mp one
    obtain ⟨new', gone', first', last', rfl⟩ := (gives_iff before after d).mp two
    exact ⟨introduced new new' first first', resolved gone gone' last last'⟩

theorem gives_sorted {new gone : List Diagnostic} (introduced : new.Perm (unmatched baseline current))
    (resolved : gone.Perm (unmatched current baseline)) (ascends : new.Pairwise NotAfter)
    (rises : gone.Pairwise NotAfter) : Gives baseline current ⟨new, gone⟩ := by
  refine (gives_iff before after _).mpr ⟨new, gone, introduced, resolved, ?_⟩
  rw [sort, sort, List.mergeSort_of_pairwise ascends, List.mergeSort_of_pairwise rises]

end Gives

/-- Only a place with an empty or a zero part is sorted to where another one is. -/
theorem apart_of_placed (other : CorpusResult) {r : CorpusResult} (valid : r.Valid)
    (placed : ∀ d ∈ r.allDiagnostics, d.file ≠ some [] ∧ d.line ≠ some 0 ∧ d.column ≠ some 0) :
    Apart (missingFrom other r) := by
  intro d here e there together level
  have own := ((mem_missingFrom other r d).mp here).1
  have present := ((mem_missingFrom other r e).mp there).1
  have key := Report.key_eq_of_sortKey (placed d own) (placed e present) together level
  exact List.inj_on_of_nodup_map valid.distinct present own key

end ResultDiff

namespace Report

def comparedLine (d : Diagnostic) : Text := diagnosticLine d true ++ "\n"

def listingHead (title : Text) (ds : List Diagnostic) : Text :=
  if ds.isEmpty then [] else closed ([] :: heading ("## " ++ title))

theorem closed_diffSection (title : Text) (ds : List Diagnostic) :
    closed ((diffSection title ds).flatMap fun part => [] :: part) =
      listingHead title ds ++ ds.flatMap comparedLine := by
  cases ds with
  | nil => rfl
  | cons d rest =>
    have lines : closed ((d :: rest).map (diagnosticLine · true)) =
        (d :: rest).flatMap comparedLine := List.flatMap_map ..
    rw [diffSection, listingHead, if_neg (by simp), if_neg (by simp), List.flatMap_singleton,
      ← List.cons_append, closed_append, lines]

theorem renderDiff_eq (d : ResultDiff) : renderDiff d =
    closed (heading "# Diff" ++ ["Introduced: " ++ Text.ofNat d.introduced.length,
      "Resolved: " ++ Text.ofNat d.resolved.length]) ++
      ((listingHead "Introduced" d.introduced ++ d.introduced.flatMap comparedLine) ++
        (listingHead "Resolved" d.resolved ++ d.resolved.flatMap comparedLine)) := by
  have parts : ∀ (title : Text) (ds : List Diagnostic), ∀ part ∈ diffSection title ds,
      part ≠ [] := by
    intro title ds part member
    rw [diffSection] at member
    split at member
    · cases member
    · rw [List.mem_singleton.mp member]
      exact List.cons_ne_nil _ _
  have each := List.forall_mem_append.mpr
    ⟨parts "Introduced" d.introduced, parts "Resolved" d.resolved⟩
  rw [renderDiff, List.append_assoc, List.singleton_append, joinSections_cons _ _ (by simp) each,
    List.flatMap_append, closed_append, closed_append (List.flatMap _ _), closed_diffSection,
    closed_diffSection]

/-- Comparisons that list the same findings on either side in some order are shown alike exactly if
their lines are the same text. -/
theorem renderDiff_eq_iff {c d : ResultDiff} (introduced : c.introduced.Perm d.introduced)
    (resolved : c.resolved.Perm d.resolved) : renderDiff c = renderDiff d ↔
      c.introduced.flatMap comparedLine = d.introduced.flatMap comparedLine ∧
        c.resolved.flatMap comparedLine = d.resolved.flatMap comparedLine := by
  have head : ∀ (title : Text) {ds es : List Diagnostic}, ds.Perm es →
      listingHead title ds = listingHead title es := by
    intro title ds es same
    rw [listingHead, listingHead, same.isEmpty_eq]
  have length := (introduced.flatMap_right comparedLine).length_eq
  rw [renderDiff_eq, renderDiff_eq, introduced.length_eq, resolved.length_eq, head _ introduced,
    head _ resolved, List.append_cancel_left_eq, List.append_assoc, List.append_assoc,
    List.append_cancel_left_eq]
  constructor
  · intro equal
    obtain ⟨front, back⟩ := List.append_inj equal length
    exact ⟨front, List.append_cancel_left back⟩
  · rintro ⟨front, back⟩
    rw [front, back]

end Report

open ResultDiff Report

/-- Comparing two valid results gives the same lists for every order in which the keys may come,
exactly if no two of the findings that are new, and no two of those that are gone, are sorted to one
place. It gives the same report exactly if such findings look the same in either order. -/
theorem diff_settled_iff (baseline current : CorpusResult) (before : baseline.Valid)
    (after : current.Valid) :
    let given := between baseline current
    Gives baseline current given ∧
      ((∀ c d, Gives baseline current c → Gives baseline current d → c = d) ↔
        Apart given.introduced ∧ Apart given.resolved) ∧
      ((∀ c d, Gives baseline current c → Gives baseline current d → renderDiff c = renderDiff d) ↔
        Interchangeable comparedLine given.introduced ∧
          Interchangeable comparedLine given.resolved) := by
  intro given
  have sides : ∀ {α : Type} (shown : Diagnostic → List α),
      Interchangeable shown given.introduced ∧ Interchangeable shown given.resolved ↔
        ∀ c d, Gives baseline current c → Gives baseline current d →
          c.introduced.flatMap shown = d.introduced.flatMap shown ∧
            c.resolved.flatMap shown = d.resolved.flatMap shown := by
    intro α shown
    rw [gives_settled_iff before after]
    exact and_congr (interchangeable_sort _ _) (interchangeable_sort _ _)
  refine ⟨gives_between before after, ?_, ?_⟩
  · rw [← interchangeable_singleton, ← interchangeable_singleton, sides]
    refine forall₄_congr fun c d _ _ => ?_
    rw [List.flatMap_singleton', List.flatMap_singleton', List.flatMap_singleton',
      List.flatMap_singleton', ← ResultDiff.mk.injEq]
  · rw [sides]
    refine forall₄_congr fun c d one two => ?_
    obtain ⟨introduced, resolved⟩ := one.perm before after two
    exact renderDiff_eq_iff introduced resolved

/-- Two findings of the later run stand in one file, the one further down stored first. -/
theorem diff_settled_lines :
    let finding (line : Int) : Diagnostic :=
      { package := "a", rule := "x", severity := .warning, message := "m", file := some "a.rs",
        line := some line }
    let result (ds : List Diagnostic) : CorpusResult :=
      { root := Path.ofText "/here", packages := ["a"], diagnostics := .ofList [("x", ds)] }
    let baseline := result [finding 1]
    let current := result [finding 3, finding 2]
    baseline.Valid ∧ current.Valid ∧ Gives baseline current ⟨[finding 2, finding 3], [finding 1]⟩ ∧
      ∀ c d, Gives baseline current c → Gives baseline current d → c = d := by
  intro finding result baseline current
  have before : baseline.Valid := ⟨by decide +kernel, by decide +kernel, by decide +kernel⟩
  have after : current.Valid := ⟨by decide +kernel, by decide +kernel, by decide +kernel⟩
  have gives : Gives baseline current ⟨[finding 2, finding 3], [finding 1]⟩ :=
    gives_sorted before after (List.Perm.swap _ _ _) (.refl _) (by decide +kernel)
      (by decide +kernel)
  obtain ⟨-, settled, -⟩ := diff_settled_iff baseline current before after
  refine ⟨before, after, gives, settled.mpr ⟨?_, ?_⟩⟩
  · exact apart_of_placed baseline after (by decide +kernel)
  · exact apart_of_placed current before (by decide +kernel)

/-- A finding without a file and one whose file has an empty name, both of them new, come in either
order. -/
theorem diff_moved_by_order :
    let finding (file : Option Text) : Diagnostic :=
      { package := "a", rule := "x", severity := .warning, message := "m", file }
    let result (ds : List Diagnostic) : CorpusResult :=
      { root := Path.ofText "/here", packages := ["a"], diagnostics := .ofList [("x", ds)] }
    let baseline := result []
    let current := result [finding none, finding (some [])]
    let c : ResultDiff := ⟨[finding none, finding (some [])], []⟩
    let d : ResultDiff := ⟨[finding (some []), finding none], []⟩
    baseline.Valid ∧ current.Valid ∧ Gives baseline current c ∧ Gives baseline current d ∧
      c ≠ d ∧ renderDiff c ≠ renderDiff d := by
  intro finding result baseline current c d
  have before : baseline.Valid := ⟨by decide +kernel, by decide +kernel, by decide +kernel⟩
  have after : current.Valid := ⟨by decide +kernel, by decide +kernel, by decide +kernel⟩
  refine ⟨before, after, ?_, ?_, by decide +kernel, by decide +kernel⟩
  · exact gives_sorted before after (.refl _) (.refl _) (by decide +kernel) (by decide +kernel)
  · exact gives_sorted before after (List.Perm.swap _ _ _) (.refl _) (by decide +kernel)
      (by decide +kernel)

end LintCorpus
