import LintCorpus.Catalog
import LintCorpus.Proofs.Failure
import LintCorpus.Proofs.Files.Tree
import Mathlib.Data.List.TakeDrop

/-!
Searching a corpus. Every entry is judged by what stands at its place, up to the first one that
cannot be judged: its path is too long for the system, or its manifest is no text.
-/
namespace LintCorpus.Catalog

open FileTree

def overlong? (p : Path) : Option FileFault :=
  if checkLength p = .ok () then none else some (.refused .nameTooLong (some p.toText))

def undecodable? (bytes : Bytes) : Option FileFault :=
  match Utf8.decodeStrict bytes with
  | .error fault => some (.undecodable fault)
  | .ok _ => none

def unreadable? (bytes : Bytes) : Option Disqualification :=
  match Utf8.decodeStrict bytes with
  | .error fault => some (.unreadable (.file (.undecodable fault)))
  | .ok content =>
    match Toml.read content with
    | .error fault => some (.unreadable (.document fault))
    | .ok _ => none

def reason? (t : FileTree) (place : List Text) : Option Disqualification :=
  if t.isDirectoryAt place = false then some .notADirectory
  else
    match t.fileAt? (place ++ [manifestName]) with
    | none => some .noManifest
    | some bytes => unreadable? bytes

/-- What ends the search at an entry, if anything does. -/
def obstacle? (t : FileTree) (entry : Path) (place : List Text) : Option FileFault :=
  (overlong? entry).or <|
    if t.isDirectoryAt place = false then none
    else (overlong? (entry.child manifestName)).or <|
      (t.fileAt? (place ++ [manifestName])).bind undecodable?

/-- An entry that can be judged. -/
structure Passable (t : FileTree) (entry : Path) (place : List Text) : Prop where
  short : checkLength entry = .ok ()
  manifestShort : t.isDirectoryAt place = true → checkLength (entry.child manifestName) = .ok ()
  decodes : t.isDirectoryAt place = true → ∀ bytes,
    t.fileAt? (place ++ [manifestName]) = some bytes →
      ∃ content, Utf8.decodeStrict bytes = .ok content

theorem overlong?_eq_none (p : Path) : overlong? p = none ↔ checkLength p = .ok () := by
  rw [overlong?]
  split <;> simp [*]

theorem undecodable?_eq_none (bytes : Bytes) :
    undecodable? bytes = none ↔ ∃ content, Utf8.decodeStrict bytes = .ok content := by
  rw [undecodable?]
  rcases Utf8.decodeStrict bytes with fault | content <;> simp

theorem obstacle?_eq_none (t : FileTree) (entry : Path) (place : List Text) :
    obstacle? t entry place = none ↔ Passable t entry place := by
  rw [obstacle?, Option.or_eq_none_iff, overlong?_eq_none]
  by_cases inside : t.isDirectoryAt place = true
  · rw [if_neg (by simp [inside]), Option.or_eq_none_iff, overlong?_eq_none,
      Option.bind_eq_none_iff]
    constructor
    · rintro ⟨short, manifestShort, decodes⟩
      exact ⟨short, fun _ => manifestShort,
        fun _ bytes held => (undecodable?_eq_none bytes).mp (decodes bytes held)⟩
    · rintro ⟨short, manifestShort, decodes⟩
      exact ⟨short, manifestShort inside,
        fun bytes held => (undecodable?_eq_none bytes).mpr (decodes inside bytes held)⟩
  · rw [Bool.not_eq_true] at inside
    rw [if_pos inside]
    constructor
    · rintro ⟨short, -⟩
      exact ⟨short, by simp [inside], by simp [inside]⟩
    · intro passable
      exact ⟨passable.short, rfl⟩

section Entry

variable {t : FileTree} {root : Path} {place : List Text} (reaches : t.Reaches root place)
  (inside : t.isDirectoryAt place = true) {name : Text} (named : FileName name)

include reaches inside named

theorem isDirectory_entry : t.isDirectory (root.child name) =
    match overlong? (root.child name) with
    | some fault => .error fault
    | none => .ok (t.isDirectoryAt (place ++ [name])) := by
  rw [isDirectory, reaches.leadsTo_child named inside, overlong?]
  split <;> rfl

theorem isFile_entry : t.isFile (root.child name) =
    match overlong? (root.child name) with
    | some fault => .error fault
    | none => .ok (t.fileAt? (place ++ [name])).isSome := by
  rw [isFile, reaches.leadsTo_child named inside, overlong?, isSome_fileAt?]
  split <;> rfl

omit reaches inside named in
private theorem disqualify_directory (entry : Path) (opened : t.isDirectory entry = .ok true) :
    disqualify t entry = t.isFile (entry.child manifestName) >>= fun found =>
      if found then
        match Toml.load t (entry.child manifestName) with
        | .ok _ => .ok none
        | .error fault => (manifestReason fault).map some
      else .ok (some .noManifest) := by
  rw [disqualify, opened]
  show (t.isFile (entry.child manifestName) >>= _) = _
  congr
  funext found
  cases found with
  | false => rfl
  | true =>
    show (match Toml.load t (entry.child manifestName) with
      | .ok _ => _
      | .error _ => _) = _
    rcases Toml.load t (entry.child manifestName) with fault | manifest
    · show manifestReason fault >>= _ = (manifestReason fault).map some
      rcases manifestReason fault with fault | reason <;> rfl
    · rfl

theorem load_entry (short : checkLength (root.child name) = .ok ()) (bytes : Bytes)
    (held : t.fileAt? (place ++ [name]) = some bytes) :
    (match Toml.load t (root.child name) with
      | .ok _ => Except.ok none
      | .error fault => (manifestReason fault).map some) =
    match undecodable? bytes with
    | some fault => .error fault
    | none => .ok (unreadable? bytes) := by
  have loaded : Toml.load t (root.child name) =
      match Utf8.decodeStrict bytes with
      | .error fault => .error (.file (.undecodable fault))
      | .ok content => (Toml.read content).mapError Toml.LoadFault.document := by
    rw [Toml.load, reaches.read_child named inside short bytes held]
    rfl
  rw [loaded, undecodable?, unreadable?]
  rcases Utf8.decodeStrict bytes with fault | content
  · rfl
  · dsimp only
    rcases Toml.read content with fault | manifest <;> rfl

theorem disqualify_entry : disqualify t (root.child name) =
    match obstacle? t (root.child name) (place ++ [name]) with
    | some fault => .error fault
    | none => .ok (reason? t (place ++ [name])) := by
  have opened := isDirectory_entry reaches inside named
  rw [obstacle?, reason?]
  rcases long : overlong? (root.child name) with _ | fault
  swap
  · rw [disqualify, opened, long]
    rfl
  rw [long] at opened
  rcases directory : t.isDirectoryAt (place ++ [name]) with _ | _
  · rw [disqualify, opened, directory]
    rfl
  rw [directory] at opened
  have used : (t.node? (place ++ [name])).isSome := by
    rw [isDirectoryAt, Option.any_eq_true] at directory
    obtain ⟨node, found, -⟩ := directory
    rw [found]
    rfl
  have below := reaches.child named inside used
  have manifest : FileName manifestName := by decide
  rw [disqualify_directory _ opened, isFile_entry below directory manifest]
  rcases manifestLong : overlong? ((root.child name).child manifestName) with _ | fault
  swap
  · rfl
  rcases held : t.fileAt? (place ++ [name] ++ [manifestName]) with _ | bytes
  · rfl
  rw [overlong?_eq_none] at manifestLong
  exact load_entry below directory manifest manifestLong bytes held

end Entry

theorem load_of_disqualify (t : FileTree) (entry : Path)
    (qualifies : disqualify t entry = .ok none) :
    ∃ manifest, Toml.load t (entry.child manifestName) = .ok manifest := by
  obtain ⟨directory, opened, rest⟩ := bind_eq_ok.mp qualifies
  cases directory with
  | false => cases rest
  | true =>
    rw [disqualify_directory entry opened] at qualifies
    obtain ⟨found, -, rest⟩ := bind_eq_ok.mp qualifies
    cases found with
    | false => cases rest
    | true =>
      rcases loaded : Toml.load t (entry.child manifestName) with fault | manifest
      · rw [loaded] at rest
        rcases judged : manifestReason fault with other | reason
        · simp [judged, Except.map] at rest
        · simp [judged, Except.map] at rest
      · exact ⟨manifest, rfl⟩

def judged (t : FileTree) (root : Path) (place names : List Text) : Catalog where
  root
  packages := (names.filter fun name => (reason? t (place ++ [name])).isNone).map fun name =>
    { name, path := root.child name }
  skipped := names.filterMap fun name => (reason? t (place ++ [name])).map (Skipped.mk name)

theorem foldl_add_of_fault (t : FileTree) (names : List Text) (c : Catalog)
    (ended : c.fault.isSome) : names.foldl (add t) c = c := by
  induction names with
  | nil => rfl
  | cons name rest ih => rw [List.foldl_cons, add, if_pos ended, ih]

private theorem add_running (t : FileTree) (c : Catalog) (running : c.fault = none) (name : Text) :
    add t c name = match disqualify t (c.root.child name) with
      | .error fault => { c with fault := some fault }
      | .ok (some reason) => { c with skipped := c.skipped ++ [⟨name, reason⟩] }
      | .ok none => { c with packages := c.packages ++ [{ name, path := c.root.child name }] } := by
  rw [add, running]
  rfl

section Search

variable {t : FileTree} {root : Path} {place : List Text} (reaches : t.Reaches root place)
  (inside : t.isDirectoryAt place = true)

include reaches inside

private theorem add_judged (front : List Text) (name : Text) (named : FileName name) :
    add t (judged t root place front) name =
      match obstacle? t (root.child name) (place ++ [name]) with
      | some fault => { judged t root place front with fault := some fault }
      | none => judged t root place (front ++ [name]) := by
  have running : (judged t root place front).fault = none := rfl
  have below : (judged t root place front).root = root := rfl
  rw [add_running t _ running, below, disqualify_entry reaches inside named]
  rcases obstacle? t (root.child name) (place ++ [name]) with _ | fault
  swap
  · rfl
  rcases reason : reason? t (place ++ [name]) with _ | why
  · simp [judged, reason]
  · simp [judged, reason]

theorem foldl_add (names : List Text) (named : ∀ name ∈ names, FileName name)
    (front : List Text) :
    let blocked := fun name => obstacle? t (root.child name) (place ++ [name])
    names.foldl (add t) (judged t root place front) =
      { judged t root place (front ++ names.takeWhile fun name => (blocked name).isNone) with
        fault := names.findSome? blocked } := by
  intro blocked
  -- `front` is what has been judged: it grows by each entry without an obstacle.
  induction names generalizing front with
  | nil =>
    rw [List.takeWhile_nil, List.append_nil]
    rfl
  | cons name rest ih =>
    rw [List.foldl_cons, add_judged reaches inside front name (named name List.mem_cons_self)]
    rcases found : obstacle? t (root.child name) (place ++ [name]) with _ | fault
    · dsimp only
      rw [ih (fun later among => named later (List.mem_cons_of_mem _ among)),
        List.takeWhile_cons_of_pos (by simp [blocked, found]),
        List.findSome?_cons_of_isNone (by simp [blocked, found]), List.append_assoc]
      rfl
    · dsimp only
      rw [foldl_add_of_fault _ _ _ rfl, List.takeWhile_cons_of_neg (by simp [blocked, found]),
        List.findSome?_cons_of_isSome (by simp [blocked, found]), List.append_nil]
      simp [blocked, found]

end Search

theorem nodup_candidates {names : List Text} (distinct : names.Nodup) : (candidates names).Nodup :=
  ((List.mergeSort_perm names Text.le).nodup_iff.mpr distinct).filter _

theorem mem_of_mem_candidates {names : List Text} {name : Text} (counts : name ∈ candidates names) :
    name ∈ names :=
  (List.mergeSort_perm names Text.le).subset (List.mem_filter.mp counts).1

private theorem packages_foldl_add (t : FileTree) (names : List Text) (c : Catalog) :
    ∃ found, found.Sublist names ∧ (names.foldl (add t) c).packages.map Package.name =
      c.packages.map Package.name ++ found := by
  induction names generalizing c with
  | nil => exact ⟨[], .slnil, (List.append_nil _).symm⟩
  | cons name rest ih =>
    obtain ⟨found, among, listed⟩ := ih (add t c name)
    have one : (add t c name).packages.map Package.name = c.packages.map Package.name ∨
        (add t c name).packages.map Package.name = c.packages.map Package.name ++ [name] := by
      rcases running : c.fault with _ | fault
      · rw [add_running t c running]
        rcases disqualify t (c.root.child name) with fault | _ | reason
        · exact .inl rfl
        · exact .inr List.map_append
        · exact .inl rfl
      · rw [add, if_pos (by simp [running])]
        exact .inl rfl
    rw [List.foldl_cons, listed]
    rcases one with passed | added
    · exact ⟨found, among.cons name, by rw [passed]⟩
    · refine ⟨name :: found, among.cons_cons name, ?_⟩
      rw [added, List.append_assoc, List.singleton_append]

theorem nodup_packages {t : FileTree} {root : Path} {c : Catalog} (proper : t.Proper)
    (found : search t root = .ok c) : (c.packages.map Package.name).Nodup := by
  obtain ⟨inside, -, rest⟩ := bind_eq_ok.mp found
  cases inside with
  | false => cases rest
  | true =>
    obtain ⟨names, listed, ended⟩ := bind_eq_ok.mp rest
    obtain ⟨place, rfl⟩ : ∃ place, t.names place = names := by
      rcases here : t.list (root.absolute t.workingDirectory) with fault | entries
      · rw [here] at listed
        cases listed
      · rw [here] at listed
        cases listed
        obtain ⟨-, -, located⟩ := bind_eq_ok.mp here
        obtain ⟨place, -, opened⟩ := bind_eq_ok.mp located
        split at opened
        · exact ⟨place, Except.ok.inj opened⟩
        · cases opened
    obtain rfl : _ = c := Except.ok.inj ended
    obtain ⟨found, among, named⟩ := packages_foldl_add t (candidates (t.names place))
      { root := root.absolute t.workingDirectory }
    rw [named]
    exact (nodup_candidates proper.nodup_names).sublist among

/-- What a search gives of a directory: the entries it judged, in order, with those that are
packages and those that are not, and what kept it from the others. -/
structure Account (t : FileTree) (c : Catalog) (place visited unvisited : List Text) : Prop where
  entries : candidates (t.names place) = visited ++ unvisited
  distinct : (visited ++ unvisited).Nodup
  packages : c.packages = (visited.filter fun name => (reason? t (place ++ [name])).isNone).map
    fun name => { name, path := c.root.child name }
  skipped : c.skipped = visited.filterMap fun name =>
    (reason? t (place ++ [name])).map (Skipped.mk name)
  finished : c.fault = none ↔ unvisited = []
  blocked : ∀ first rest, unvisited = first :: rest →
    c.fault = obstacle? t (c.root.child first) (place ++ [first])

private theorem findSome?_eq_of_dropWhile {α β : Type} (f : α → Option β) (xs : List α) (first : α)
    (rest : List α) (left : xs.dropWhile (fun x => (f x).isNone) = first :: rest) :
    xs.findSome? f = f first := by
  induction xs with
  | nil => cases left
  | cons x xs ih =>
    rcases value : f x with _ | found
    · rw [List.dropWhile_cons_of_pos (by simp [value])] at left
      rw [List.findSome?_cons_of_isNone (by simp [value]), ih left]
    · rw [List.dropWhile_cons_of_neg (by simp [value])] at left
      cases left
      rw [List.findSome?_cons_of_isSome (by simp [value])]

/-- A search comes to its end exactly if every entry can be judged. Up to the first that cannot,
every package is found and everything else is noted once. -/
theorem search_finishes_iff (t : FileTree) (root : Path) (proper : t.Proper)
    (opened : t.isDirectory (root.absolute t.workingDirectory) = .ok true) :
    ∃ c place visited unvisited, search t root = .ok c ∧
      c.root = root.absolute t.workingDirectory ∧ t.Reaches c.root place ∧
      Account t c place visited unvisited ∧
      (c.fault = none ↔
        ∀ name ∈ visited ++ unvisited, Passable t (c.root.child name) (place ++ [name])) := by
  obtain ⟨place, reaches, inside, listed⟩ := reaches_of_isDirectory _ opened
  let here := root.absolute t.workingDirectory
  let entries := candidates (t.names place)
  let blocked := fun name => obstacle? t (here.child name) (place ++ [name])
  let visited := entries.takeWhile fun name => (blocked name).isNone
  let unvisited := entries.dropWhile fun name => (blocked name).isNone
  have named : ∀ name ∈ entries, FileName name := fun name counts =>
    proper.fileName name (mem_of_mem_candidates counts)
  have searched : search t root =
      .ok { judged t here place visited with fault := entries.findSome? blocked } := by
    rw [search, opened]
    show (t.list here).mapError Failure.aborted >>= _ = _
    rw [listed]
    exact congrArg Except.ok (foldl_add reaches inside entries named [])
  have parted : entries = visited ++ unvisited := List.takeWhile_append_dropWhile.symm
  have open_ : entries.findSome? blocked = none ↔
      ∀ name ∈ entries, Passable t (here.child name) (place ++ [name]) := by
    rw [List.findSome?_eq_none_iff]
    exact forall₂_congr fun name _ => obstacle?_eq_none t _ _
  refine ⟨_, place, visited, unvisited, searched, rfl, reaches, ?_, parted ▸ open_⟩
  exact {
    entries := parted
    distinct := parted ▸ nodup_candidates proper.nodup_names
    packages := rfl
    skipped := rfl
    finished := by
      show entries.findSome? blocked = none ↔ _
      rw [List.findSome?_eq_none_iff, List.dropWhile_eq_nil_iff]
      exact forall₂_congr fun name _ => Option.isNone_iff_eq_none.symm
    blocked := fun first rest left => findSome?_eq_of_dropWhile blocked entries first rest left }

/-- A manifest that is no document is no obstacle. -/
theorem search_finishes_malformed :
    let t : FileTree :=
      { nodes := [(["crates"], ⟨.directory, 0⟩), (["crates", "a"], ⟨.directory, 0⟩),
          (["crates", "a", "Cargo.toml"], ⟨.file (Utf8.encode "name = "), 0⟩),
          (["crates", "b"], ⟨.directory, 0⟩),
          (["crates", "b", "Cargo.toml"], ⟨.file (Utf8.encode "name = 'b'"), 0⟩)]
        workingDirectory := Path.ofText "/" }
    t.Proper ∧ ∃ c, search t (Path.ofText "crates") = .ok c ∧ c.fault = none ∧
      c.packages.map Package.name = (["b"] : List Text) ∧
      c.skipped.map Skipped.name = (["a"] : List Text) := by
  intro t
  have proper : t.Proper := ⟨by decide, by decide⟩
  have opened : t.isDirectory ((Path.ofText "crates").absolute t.workingDirectory) = .ok true := by
    decide
  obtain ⟨c, place, visited, unvisited, searched, rooted, reaches, account, finishes⟩ :=
    search_finishes_iff t (Path.ofText "crates") proper opened
  have located : place = (["crates"] : List Text) := by
    have walked := reaches.walked
    rw [rooted] at walked
    exact (Except.ok.inj walked).symm
  subst located
  have entries : visited ++ unvisited = (["a", "b"] : List Text) := by
    rw [← account.entries]
    exact congrArg (List.filter _) (List.mergeSort_of_pairwise (by decide))
  have ended : c.fault = none := by
    rw [finishes, entries, rooted]
    intro name member
    rw [← obstacle?_eq_none]
    revert name
    decide +kernel
  rw [account.finished.mp ended, List.append_nil] at entries
  refine ⟨proper, c, searched, ended, ?_, ?_⟩
  · rw [account.packages, entries, List.map_map]
    show List.map (fun name => name) _ = _
    rw [List.map_id']
    decide +kernel
  · rw [account.skipped, entries]
    decide +kernel

/-- A manifest that is no text keeps the package behind it from being found. -/
theorem search_stops_at_undecodable :
    let t : FileTree :=
      { nodes := [(["crates"], ⟨.directory, 0⟩), (["crates", "a"], ⟨.directory, 0⟩),
          (["crates", "a", "Cargo.toml"], ⟨.file (Utf8.encode "name = 'a'"), 0⟩),
          (["crates", "b"], ⟨.directory, 0⟩), (["crates", "b", "Cargo.toml"], ⟨.file [0xFF], 0⟩),
          (["crates", "c"], ⟨.directory, 0⟩),
          (["crates", "c", "Cargo.toml"], ⟨.file (Utf8.encode "name = 'c'"), 0⟩)]
        workingDirectory := Path.ofText "/" }
    t.Proper ∧ reason? t ["crates", "c"] = none ∧
      ∃ c, search t (Path.ofText "crates") = .ok c ∧
        c.fault = some (.undecodable ⟨0xFF, 0, 1, .invalidStart⟩) ∧
        c.packages.map Package.name = (["a"] : List Text) ∧ c.skipped = [] := by
  intro t
  have searched : search t (Path.ofText "crates") = .ok ((candidates ["a", "b", "c"]).foldl (add t)
      { root := (Path.ofText "crates").absolute t.workingDirectory }) := rfl
  have entries : candidates ["a", "b", "c"] = (["a", "b", "c"] : List Text) :=
    congrArg (List.filter _) (List.mergeSort_of_pairwise (by decide))
  rw [entries] at searched
  refine ⟨⟨by decide, by decide⟩, by decide +kernel, _, searched, ?_, ?_, ?_⟩
  · decide +kernel
  · decide +kernel
  · decide +kernel

end LintCorpus.Catalog
