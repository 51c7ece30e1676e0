import LintCorpus.Proofs.Corpus.Completion
import LintCorpus.Proofs.Report.Alike

/-!
The entries of a corpus and their order. Every entry is passed over, noted or found, and once. What
is found comes in the order of the names, and so do the packages of a result and of its report.
-/
namespace LintCorpus

namespace Catalog

open FileTree

/-- A directory that holds a manifest which is a document. -/
def IsPackage (t : FileTree) (place : List Text) : Prop :=
  t.isDirectoryAt place = true ∧ ∃ bytes content manifest,
    t.fileAt? (place ++ [manifestName]) = some bytes ∧
      Utf8.decodeStrict bytes = .ok content ∧ Toml.read content = .ok manifest

/-- The manifests below the entries of a directory are texts. -/
def Decodes (t : FileTree) (place : List Text) : Prop :=
  ∀ name ∈ t.names place, ∀ bytes, t.fileAt? (place ++ [name] ++ [manifestName]) = some bytes →
    ∃ content, Utf8.decodeStrict bytes = .ok content

/-- The system can be asked for an entry and, if it is a directory, for its manifest. -/
def Reachable (t : FileTree) (entry : Path) (place : List Text) : Prop :=
  checkLength entry = .ok () ∧
    (t.isDirectoryAt place = true → checkLength (entry.child manifestName) = .ok ())

/-- What a search makes of the entries of a directory: each is passed over, noted once or found
once, and the packages found are in order. -/
structure Partition (t : FileTree) (c : Catalog) (place : List Text) : Prop where
  finished : c.fault = none
  distinct : (t.names place).Nodup
  parts : ((t.names place).filter isPassedOver ++ c.skipped.map Skipped.name ++
    c.packages.map Package.name).Perm (t.names place)
  ascends : (c.packages.map Package.name).Pairwise Text.Before
  fresh : ∀ package ∈ c.packages,
    package.path = c.root.child package.name ∧ package.state = .unknown
  qualifies : ∀ name ∈ t.names place, isPassedOver name = false →
    (name ∈ c.packages.map Package.name ↔ IsPackage t (place ++ [name]))

theorem unreadable?_eq_none (bytes : Bytes) : unreadable? bytes = none ↔ ∃ content manifest,
    Utf8.decodeStrict bytes = .ok content ∧ Toml.read content = .ok manifest := by
  rw [unreadable?]
  rcases Utf8.decodeStrict bytes with fault | content
  · simp
  · dsimp only
    rcases read : Toml.read content with fault | manifest <;> simp [read]

theorem reason?_eq_none (t : FileTree) (place : List Text) :
    reason? t place = none ↔ IsPackage t place := by
  rw [reason?, IsPackage]
  by_cases inside : t.isDirectoryAt place = true
  · rw [if_neg (by simp [inside])]
    rcases t.fileAt? (place ++ [manifestName]) with _ | bytes
    · simp
    · simp [inside, unreadable?_eq_none]
  · rw [Bool.not_eq_true] at inside
    simp [inside]

theorem passable_iff {t : FileTree} {place : List Text} (decodes : Decodes t place) {name : Text}
    (listed : name ∈ t.names place) (entry : Path) :
    Passable t entry (place ++ [name]) ↔ Reachable t entry (place ++ [name]) :=
  ⟨fun passable => ⟨passable.short, passable.manifestShort⟩,
    fun reachable => ⟨reachable.1, reachable.2, fun _ => decodes name listed⟩⟩

theorem decodes_iff (t : FileTree) (place : List Text) : Decodes t place ↔
    ∀ name ∈ t.names place,
      (t.fileAt? (place ++ [name] ++ [manifestName])).bind undecodable? = none := by
  refine forall₂_congr fun name _ => ?_
  rw [Option.bind_eq_none_iff]
  exact forall₂_congr fun bytes _ => (undecodable?_eq_none bytes).symm

instance (t : FileTree) (place : List Text) : Decidable (IsPackage t place) :=
  decidable_of_iff _ (reason?_eq_none t place)

instance (t : FileTree) (place : List Text) : Decidable (Decodes t place) :=
  decidable_of_iff _ (decodes_iff t place).symm

instance (t : FileTree) (entry : Path) (place : List Text) : Decidable (Reachable t entry place) :=
  inferInstanceAs (Decidable (_ ∧ _))

theorem mem_candidates {names : List Text} {name : Text} :
    name ∈ candidates names ↔ name ∈ names ∧ isPassedOver name = false := by
  rw [candidates, List.mem_filter, Text.mem_sort, Bool.not_eq_true']

theorem candidates_ascend {names : List Text} (distinct : names.Nodup) :
    (candidates names).Pairwise Text.Before := (Text.sort_ascends distinct).filter _

theorem candidates_perm (names : List Text) :
    (names.filter isPassedOver ++ candidates names).Perm names := by
  have others : (candidates names).Perm (names.filter fun name => !isPassedOver name) :=
    (List.mergeSort_perm names Text.le).filter _
  exact (others.append_left _).trans (List.filter_append_perm isPassedOver names)

section Judged

variable {t : FileTree} {root : Path} {place : List Text}

theorem names_judged (names : List Text) :
    (judged t root place names).packages.map Package.name =
        names.filter (fun name => (reason? t (place ++ [name])).isNone) ∧
      (judged t root place names).skipped.map Skipped.name =
        names.filter fun name => !(reason? t (place ++ [name])).isNone := by
  constructor
  · rw [judged, List.map_map]
    exact List.map_id _
  · rw [judged]
    dsimp only
    induction names with
    | nil => rfl
    | cons name rest ih =>
      rcases reason : reason? t (place ++ [name]) with _ | why
      · rw [List.filterMap_cons_none (by rw [reason]; rfl),
          List.filter_cons_of_neg (by simp [reason]), ih]
      · rw [List.filterMap_cons_some (by rw [reason]; rfl),
          List.filter_cons_of_pos (by simp [reason]), List.map_cons, ih]

theorem ascends_judged {names : List Text} (ordered : names.Pairwise Text.Before) :
    ((judged t root place names).packages.map Package.name).Pairwise Text.Before := by
  rw [(names_judged names).1]
  exact ordered.filter _

theorem partition_judged (proper : t.Proper) :
    Partition t (judged t root place (candidates (t.names place))) place := by
  obtain ⟨packages, skipped⟩ := @names_judged t root place (candidates (t.names place))
  constructor
  · rfl
  · exact proper.nodup_names
  · have both := List.filter_append_perm
      (fun name => !(reason? t (place ++ [name])).isNone) (candidates (t.names place))
    simp only [Bool.not_not] at both
    rw [packages, skipped, List.append_assoc]
    exact (both.append_left _).trans (candidates_perm (t.names place))
  · exact ascends_judged (candidates_ascend proper.nodup_names)
  · intro package found
    obtain ⟨name, -, rfl⟩ := List.mem_map.mp found
    exact ⟨rfl, rfl⟩
  · intro name listed counts
    rw [packages, List.mem_filter, mem_candidates, Option.isNone_iff_eq_none, reason?_eq_none]
    exact and_iff_right ⟨listed, counts⟩

end Judged

section Search

variable {t : FileTree} {root : Path}
  (opened : t.isDirectory (root.absolute t.workingDirectory) = .ok true)

include opened

theorem search_of_isDirectory :
    ∃ place, t.Reaches (root.absolute t.workingDirectory) place ∧ t.isDirectoryAt place = true ∧
      search t root = .ok ((candidates (t.names place)).foldl (add t)
        { root := root.absolute t.workingDirectory }) := by
  obtain ⟨place, reaches, inside, listed⟩ := reaches_of_isDirectory _ opened
  refine ⟨place, reaches, inside, ?_⟩
  rw [search, opened]
  show (t.list _).mapError Failure.aborted >>= _ = _
  rw [listed]
  rfl

/-- A search judges the entries up to the first that cannot be judged. -/
theorem search_prefix (proper : t.Proper) :
    ∃ c place visited, search t root = .ok c ∧ c.root = root.absolute t.workingDirectory ∧
      t.Reaches c.root place ∧ visited <+: candidates (t.names place) ∧
      c = { judged t c.root place visited with fault := c.fault } ∧
      (c.fault = none ↔ ∀ name ∈ candidates (t.names place),
        Passable t (c.root.child name) (place ++ [name])) ∧
      (c.fault = none → visited = candidates (t.names place)) := by
  obtain ⟨place, reaches, inside, searched⟩ := search_of_isDirectory opened
  let here := root.absolute t.workingDirectory
  let entries := candidates (t.names place)
  let blocked := fun name => obstacle? t (here.child name) (place ++ [name])
  have named : ∀ name ∈ entries, FileName name := fun name counts =>
    proper.fileName name (mem_of_mem_candidates counts)
  have ended : entries.foldl (add t) { root := here } =
      { judged t here place (entries.takeWhile fun name => (blocked name).isNone) with
        fault := entries.findSome? blocked } := foldl_add reaches inside entries named []
  rw [ended] at searched
  refine ⟨_, place, _, searched, rfl, reaches, List.takeWhile_prefix _, rfl, ?_, ?_⟩
  · show entries.findSome? blocked = none ↔ _
    rw [List.findSome?_eq_none_iff]
    exact forall₂_congr fun name _ => obstacle?_eq_none t _ _
  · intro finished
    have clear : entries.findSome? blocked = none := finished
    rw [List.findSome?_eq_none_iff] at clear
    rw [List.takeWhile_eq_self_iff]
    exact fun name counts => Option.isNone_iff_eq_none.mpr (clear name counts)

end Search

end Catalog

/-- A result has the packages of a catalog, and they are in the order of their names, as the report
lists them. -/
structure CorpusResult.InOrder (r : CorpusResult) (c : Catalog) : Prop where
  packages : r.packages = c.packages.map Package.name
  sorted : Text.sort r.outcomes.keys = r.packages
  listed : Report.sortedNames r = r.packages

namespace Corpus

variable {c : Catalog}

/-- Runs of the packages, in any order, can be put in the order of the packages. -/
theorem exists_aligned {packages : List Package} {recorded : List PackageRun}
    (order : (recorded.map PackageRun.name).Perm (packages.map Package.name)) :
    ∃ runs, runs.map PackageRun.name = packages.map Package.name ∧ recorded.Perm runs := by
  have own : List.Forall₂ (fun name run => name = PackageRun.name run)
      (recorded.map PackageRun.name) recorded := by
    rw [List.forall₂_map_left_iff, List.forall₂_same]
    exact fun _ _ => rfl
  obtain ⟨runs, aligned, same⟩ := List.perm_comp_forall₂ order.symm own
  refine ⟨runs, ?_, same.symm⟩
  rw [← List.forall₂_eq_eq_eq, List.forall₂_map_left_iff]
  exact aligned.flip.imp fun _ _ named => named.symm

theorem conclude_inOrder (ascends : (c.packages.map Package.name).Pairwise Text.Before)
    (target : Option Text) (p : CorpusProgress) (unbroken : p.fault = none)
    (order : (p.recorded.map PackageRun.name).Perm (c.packages.map Package.name)) :
    ∃ r, (conclude c target p).result = .ok r ∧ r.InOrder c := by
  have distinct : (c.packages.map Package.name).Nodup := ascends.imp And.right
  obtain ⟨runs, aligned, same⟩ := exists_aligned order
  obtain ⟨m, covers, merged⟩ := aggregate_covers runs target c.root (aligned ▸ distinct)
  have keys : (m.result target c.root).outcomes.keys = c.packages.map Package.name :=
    covers.keys.trans aligned
  have packages : (m.result target c.root).packages = c.packages.map Package.name :=
    covers.packages.trans aligned
  have sorted : Text.sort (m.result target c.root).outcomes.keys =
      (m.result target c.root).packages := by
    rw [keys, packages]
    exact List.mergeSort_of_pairwise (ascends.imp And.left)
  refine ⟨_, conclude_of_perm distinct aligned target merged unbroken same, ?_⟩
  exact ⟨packages, sorted, (Report.sortedNames_eq_sort _).trans sorted⟩

theorem fault_of_conclude {target : Option Text} {p : CorpusProgress} {r : CorpusResult}
    (ended : (conclude c target p).result = .ok r) : p.fault = none := by
  rw [conclude] at ended
  split at ended
  · cases ended
  · assumption

theorem run_inOrder {t : FileTree} {launch : Launcher} {program : List Text} {config : RunConfig}
    {root : Path} (found : Catalog.search t root = .ok c)
    (ascends : (c.packages.map Package.name).Pairwise Text.Before) {r : CorpusResult}
    (ended : (run t launch program config root).result = .ok r) : r.InOrder c := by
  rw [run, found] at ended
  split at ended
  · cases ended
  · dsimp only at ended
    split at ended
    · cases ended
    · rw [lintCatalog] at ended
      have unbroken := fault_of_conclude ended
      have recorded := lintAll_recorded _ _ _ _ unbroken
      obtain ⟨result, concluded, ordered⟩ :=
        conclude_inOrder ascends config.targetLint _ unbroken (.of_eq recorded)
      rw [concluded] at ended
      cases ended
      exact ordered

end Corpus

namespace Catalog

open FileTree

/-- Every entry of a directory is passed over, noted once or found once, exactly if the system can
be asked for each that counts. The packages are in order in any case, and so is what is made of
them. -/
theorem entries_parted_iff (t : FileTree) (proper : t.Proper) (root : Path)
    (opened : t.isDirectory (root.absolute t.workingDirectory) = .ok true) :
    ∃ c place, search t root = .ok c ∧ c.root = root.absolute t.workingDirectory ∧
      t.Reaches c.root place ∧ (c.packages.map Package.name).Pairwise Text.Before ∧
      (Decodes t place → (Partition t c place ↔ ∀ name ∈ t.names place,
        isPassedOver name = false → Reachable t (c.root.child name) (place ++ [name]))) ∧
      (∀ (target : Option Text) (p : CorpusProgress), p.fault = none →
        (p.recorded.map PackageRun.name).Perm (c.packages.map Package.name) →
          ∃ r, (Corpus.conclude c target p).result = .ok r ∧ r.InOrder c) ∧
      ∀ (launch : Launcher) (program : List Text) (config : RunConfig) (r : CorpusResult),
        (Corpus.run t launch program config root).result = .ok r → r.InOrder c := by
  obtain ⟨c, place, visited, found, rooted, reaches, part, given, finishes, whole⟩ :=
    search_prefix opened proper
  have ascends : (c.packages.map Package.name).Pairwise Text.Before := by
    rw [given]
    exact ascends_judged ((candidates_ascend proper.nodup_names).sublist part.sublist)
  refine ⟨c, place, found, rooted, reaches, ascends, fun decodes => ⟨?_, ?_⟩, ?_, ?_⟩
  · intro parted name listed counts
    have passable := finishes.mp parted.finished name (mem_candidates.mpr ⟨listed, counts⟩)
    exact (passable_iff decodes listed _).mp passable
  · intro reachable
    have finished : c.fault = none := by
      rw [finishes]
      intro name counts
      obtain ⟨listed, counts⟩ := mem_candidates.mp counts
      exact (passable_iff decodes listed _).mpr (reachable name listed counts)
    rw [given, finished, whole finished]
    exact partition_judged proper
  · exact fun target p unbroken order => Corpus.conclude_inOrder ascends target p unbroken order
  · exact fun launch program config r ended => Corpus.run_inOrder found ascends ended

/-- One package among entries of every kind. -/
theorem entries_parted_mixed :
    let t : FileTree :=
      { nodes := [(["crates"], ⟨.directory, 0⟩), (["crates", ".git"], ⟨.directory, 0⟩),
          (["crates", "_target"], ⟨.directory, 0⟩), (["crates", "a"], ⟨.directory, 0⟩),
          (["crates", "a", "Cargo.toml"], ⟨.file (Utf8.encode "name = 'a'"), 0⟩),
          (["crates", "b"], ⟨.directory, 0⟩), (["crates", "notes"], ⟨.file [], 0⟩)]
        workingDirectory := Path.ofText "/" }
    t.Proper ∧ t.isDirectory ((Path.ofText "crates").absolute t.workingDirectory) = .ok true ∧
      ∃ c, search t (Path.ofText "crates") = .ok c ∧ Partition t c ["crates"] ∧
        c.packages.map Package.name = (["a"] : List Text) ∧
        c.skipped.map Skipped.name = (["b", "notes"] : List Text) := by
  intro t
  have proper : t.Proper := ⟨by decide, by decide⟩
  have opened : t.isDirectory ((Path.ofText "crates").absolute t.workingDirectory) = .ok true := by
    decide
  obtain ⟨c, place, found, rooted, reaches, -, parted, -, -⟩ :=
    entries_parted_iff t proper (Path.ofText "crates") opened
  obtain rfl : place = (["crates"] : List Text) := by
    have walked := reaches.walked
    rw [rooted] at walked
    exact (Except.ok.inj walked).symm
  have entries : candidates (t.names ["crates"]) = (["a", "b", "notes"] : List Text) :=
    congrArg (List.filter _) (List.mergeSort_of_pairwise (by decide))
  have searched : search t (Path.ofText "crates") =
      .ok ((candidates (t.names ["crates"])).foldl (add t)
        { root := (Path.ofText "crates").absolute t.workingDirectory }) := rfl
  rw [entries, found] at searched
  refine ⟨proper, opened, c, found, ?_, ?_, ?_⟩
  · rw [parted (by decide +kernel), rooted]
    decide +kernel
  · rw [Except.ok.inj searched]
    decide +kernel
  · rw [Except.ok.inj searched]
    decide +kernel

/-- A package that can only be asked for by a path beyond the limit ends the search. -/
theorem search_stops_at_overlong :
    let name : Text := List.replicate 250 'a'.toNat
    let t : FileTree :=
      { nodes := [(["crates"], ⟨.directory, 0⟩), (["crates", name], ⟨.directory, 0⟩),
          (["crates", name, "Cargo.toml"], ⟨.file [], 0⟩)]
        workingDirectory := Path.ofText "/" }
    let root := Path.ofText ("crates" ++ (List.replicate 388 ("/../crates" : Text)).flatten)
    t.Proper ∧ t.isDirectory (root.absolute t.workingDirectory) = .ok true ∧
      Decodes t ["crates"] ∧ IsPackage t ["crates", name] ∧ ∃ c, search t root = .ok c ∧
        c.fault.isSome ∧ c.packages = [] ∧ c.skipped = [] ∧ ¬Partition t c ["crates"] := by
  intro name t root
  have opened : t.isDirectory (root.absolute t.workingDirectory) = .ok true := by decide +kernel
  obtain ⟨place, reaches, -, searched⟩ := search_of_isDirectory opened
  obtain rfl : place = (["crates"] : List Text) := by
    have walked : t.walk (t.start (root.absolute t.workingDirectory))
        (root.absolute t.workingDirectory).parts = .ok ["crates"] := by decide +kernel
    rw [reaches.walked] at walked
    exact Except.ok.inj walked
  have entries : candidates (t.names ["crates"]) = [name] :=
    congrArg (List.filter _) (List.mergeSort_of_pairwise (by decide))
  rw [entries] at searched
  have ended : let c := [name].foldl (add t) { root := root.absolute t.workingDirectory }
      c.fault.isSome ∧ c.packages = [] ∧ c.skipped = [] := by
    decide +kernel
  refine ⟨⟨by decide +kernel, by decide +kernel⟩, opened, by decide +kernel, by decide +kernel,
    _, searched, ended.1, ended.2.1, ended.2.2, fun parted => ?_⟩
  have broken := ended.1
  rw [parted.finished] at broken
  cases broken

end Catalog
end LintCorpus
