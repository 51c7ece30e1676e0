import LintCorpus.CrateRoots
import LintCorpus.Proofs.Files.Path
import LintCorpus.Proofs.Files.Touch
import LintCorpus.Proofs.Toml.Document

/-!
Marking the roots of a package. It stops at the first declared root that cannot be marked, and at a
customary one only if something else is wrong than that it is missing. What the system refuses can
be told; a path that it cannot even be asked about is a fault of another kind, and only a declared
root can be such a path.
-/
namespace LintCorpus.CrateRoots

open FileTree

def isMissing : FileFault → Bool
  | .refused .notFound _ => true
  | _ => false

/-- Marks paths one after the other. One that is missing is passed over unless it is required. -/
def sweep (t : FileTree) (required marked : List Path) : List Path → Marking
  | [] => (t, .ok marked)
  | p :: rest =>
    match t.touch p with
    | .error fault =>
      if p ∈ required ∨ isMissing fault = false then (t, .error fault)
      else sweep t required marked rest
    | .ok touched => sweep touched required (marked ++ [p]) rest

/-- What a sweep does not go on after. -/
def obstacle? (t : FileTree) (required : List Path) (p : Path) : Option FileFault :=
  (t.touchFault? p).filter fun fault => p ∈ required ∨ isMissing fault = false

section Sweep

variable {t : FileTree} {required : List Path}

theorem obstacle?_eq_some {p : Path} {fault : FileFault} :
    obstacle? t required p = some fault ↔
      t.touch p = .error fault ∧ (p ∈ required ∨ isMissing fault = false) := by
  rw [obstacle?, Option.filter_eq_some_iff, ← touchFault?_of_error, decide_eq_true_eq]

theorem obstacle?_required {p : Path} (declared : p ∈ required) :
    obstacle? t required p = t.touchFault? p := by
  refine Option.ext fun fault => ?_
  rw [obstacle?_eq_some, touchFault?_of_error, and_iff_left (.inl declared)]

private theorem led_cons_of_missing {p : Path} {fault : FileFault}
    (failed : t.touch p = .error fault) (missing : isMissing fault = true) (rest : List Path)
    (place : List Text) : t.Led (p :: rest) place ↔ t.Led rest place := by
  have lost : ∃ error, t.locate p = .error error := by
    rcases (t.touchFault?_eq_some p _).mp (touchFault?_of_error.mp failed) with
      unfit | ⟨-, error, lost, -⟩
    · rcases checkPath_cases p with fits | null | ⟨other, unencodable⟩
      · cases fits.symm.trans unfit
      · cases null.symm.trans unfit
        cases missing
      · cases unencodable.symm.trans unfit
        cases missing
    · exact ⟨error, lost⟩
  obtain ⟨error, lost⟩ := lost
  simp [Led, lost]

/-- A sweep ends at its first obstacle, or it has marked all that can be marked. -/
theorem sweep_cases (t : FileTree) (required marked paths : List Path) :
    (∃ u, (∀ p ∈ paths, obstacle? t required p = none) ∧
      sweep t required marked paths =
        (u, .ok (marked ++ paths.filter fun p => t.touchFault? p = none)) ∧
      Marked t u (paths.filter fun p => t.touchFault? p = none)) ∨
    ∃ front p back fault u, paths = front ++ p :: back ∧
      (∀ q ∈ front, obstacle? t required q = none) ∧ obstacle? t required p = some fault ∧
      sweep t required marked paths = (u, .error fault) ∧ Marked t u front := by
  -- Marking one path changes no other's fault, so all faults can be read off the first tree.
  induction paths generalizing t marked with
  | nil => exact .inl ⟨t, nofun, by rw [sweep, List.filter_nil, List.append_nil], .nothing t⟩
  | cons p rest ih =>
    rcases outcome : t.touch p with fault | touched
    · have fails : t.touchFault? p = some fault := touchFault?_of_error.mp outcome
      by_cases stops : p ∈ required ∨ isMissing fault = false
      · have stopped : obstacle? t required p = some fault :=
          obstacle?_eq_some.mpr ⟨outcome, stops⟩
        refine .inr ⟨[], p, rest, fault, t, rfl, nofun, stopped, ?_, .nothing t⟩
        rw [sweep, outcome]
        exact if_pos stops
      · have next : sweep t required marked (p :: rest) = sweep t required marked rest := by
          rw [sweep, outcome]
          exact if_neg stops
        have free : obstacle? t required p = none := by
          rw [obstacle?, fails, Option.filter_some, if_neg (by simpa using stops)]
        have missing : isMissing fault = true := by simpa using (not_or.mp stops).2
        have nowhere := led_cons_of_missing outcome missing
        rw [next, List.filter_cons_of_neg (by simp [fails])]
        rcases ih t marked with ⟨u, clear, done, later⟩ |
          ⟨front, q, back, other, u, rfl, clear, stopped, failed, later⟩
        · exact .inl ⟨u, List.forall_mem_cons.mpr ⟨free, clear⟩, done, later⟩
        · exact .inr ⟨p :: front, q, back, other, u, rfl, List.forall_mem_cons.mpr ⟨free, clear⟩,
            stopped, failed, later.congr (nowhere _)⟩
    · have free : t.touchFault? p = none := (t.touchFault?_eq_none p).mpr ⟨touched, outcome⟩
      have first : Marked t touched [p] := marked_touch outcome
      have faults : touched.touchFault? = t.touchFault? :=
        funext fun q => (first.sameShape.touchFault? q).symm
      have obstacles : obstacle? touched required = obstacle? t required := by
        funext q
        rw [obstacle?, obstacle?, faults]
      have clears : obstacle? t required p = none := by rw [obstacle?, free, Option.filter_none]
      have next : sweep t required marked (p :: rest) =
          sweep touched required (marked ++ [p]) rest := by
        rw [sweep, outcome]
      have both := ih touched (marked ++ [p])
      simp only [faults, obstacles, List.append_assoc, List.singleton_append] at both
      rw [next, List.filter_cons_of_pos (by simp [free])]
      rcases both with ⟨u, clear, done, later⟩ |
        ⟨front, q, back, fault, u, rfl, clear, stopped, failed, later⟩
      · exact .inl ⟨u, List.forall_mem_cons.mpr ⟨clears, clear⟩, done, first.trans later⟩
      · exact .inr ⟨p :: front, q, back, fault, u, rfl, List.forall_mem_cons.mpr ⟨clears, clear⟩,
          stopped, failed, first.trans later⟩

theorem sweep_error_iff (marked paths : List Path) (fault : FileFault) :
    (sweep t required marked paths).2 = .error fault ↔
      paths.findSome? (obstacle? t required) = some fault := by
  rcases sweep_cases t required marked paths with ⟨u, clear, done, -⟩ |
    ⟨front, p, back, other, u, cut, clear, stopped, failed, -⟩
  · rw [done, List.findSome?_eq_none_iff.mpr clear]
    exact iff_of_false nofun nofun
  · have first := List.findSome?_eq_some_iff.mpr ⟨front, p, back, cut, stopped, clear⟩
    rw [failed, first, Except.error.injEq, Option.some.injEq]

theorem findSome?_required {paths : List Path} (declared : ∀ p ∈ paths, p ∈ required) :
    paths.findSome? (obstacle? t required) = paths.findSome? t.touchFault? := by
  induction paths with
  | nil => rfl
  | cons p rest ih =>
    obtain ⟨here, later⟩ := List.forall_mem_cons.mp declared
    rw [List.findSome?_cons, List.findSome?_cons, obstacle?_required here, ih later]

private theorem sweep_markDeclared (t : FileTree) (marked paths rest : List Path)
    (declared : ∀ p ∈ paths, p ∈ required) :
    sweep t required marked (paths ++ rest) =
      match markDeclared t marked paths with
      | (touched, .ok _) => sweep touched required (marked ++ paths) rest
      | result => result := by
  induction paths generalizing t marked with
  | nil => rw [List.append_nil, List.nil_append, markDeclared]
  | cons p more ih =>
    obtain ⟨here, later⟩ := List.forall_mem_cons.mp declared
    rw [List.cons_append, sweep, markDeclared]
    rcases t.touch p with fault | touched
    · exact if_pos (.inl here)
    · simpa only [List.append_assoc, List.singleton_append] using ih touched (marked ++ [p]) later

private theorem markDeclared_marked {t u : FileTree} {marked paths done : List Path}
    (ended : markDeclared t marked paths = (u, .ok done)) : done = marked ++ paths := by
  induction paths generalizing t marked with
  | nil =>
    cases ended
    rw [List.append_nil]
  | cons p rest ih =>
    rw [markDeclared] at ended
    split at ended
    · cases ended
    · rw [ih ended, List.append_assoc, List.singleton_append]

/-- Customary roots that are required have been marked, and no other has. -/
private theorem markCustomary_eq_sweep (t : FileTree) (marked paths : List Path)
    (distinct : paths.Nodup) (before : ∀ p ∈ paths, p ∈ marked ↔ p ∈ required) :
    markCustomary t marked paths = sweep t required marked (paths.filter (· ∉ required)) := by
  induction paths generalizing t marked with
  | nil => rw [markCustomary, List.filter_nil, sweep]
  | cons p rest ih =>
    obtain ⟨apart, distinct⟩ := List.nodup_cons.mp distinct
    obtain ⟨here, later⟩ := List.forall_mem_cons.mp before
    by_cases declared : p ∈ required
    · rw [markCustomary, if_pos (by simpa using here.mpr declared),
        List.filter_cons_of_neg (by simpa using declared)]
      exact ih t marked distinct later
    · rw [markCustomary, if_neg (by simpa using mt here.mp declared),
        List.filter_cons_of_pos (by simpa using declared), sweep]
      have undisturbed : ∀ q ∈ rest, q ∈ marked ++ [p] ↔ q ∈ required := by
        intro q among
        have differs : q ≠ p := by
          rintro rfl
          exact apart among
        rw [List.mem_append, List.mem_singleton, or_iff_left differs, later q among]
      rcases t.touch p with fault | touched
      · have goesOn : markCustomary t marked rest = sweep t required marked
            (rest.filter (· ∉ required)) := ih t marked distinct later
        rcases fault with ⟨_ | _, path⟩ | _ | _ | _ <;> simp [isMissing, declared, goesOn]
      · exact ih touched _ distinct undisturbed

end Sweep

section Roots

variable (package : Path) (manifest : Members)

def roots : List Path := (declared manifest).map package.child

def spare : List Path := (customary.map package.child).filter (· ∉ roots package manifest)

theorem parts_customary {name : Text} (among : name ∈ customary) :
    (package.child name).parts = package.parts ++ (Path.ofText name).parts := by
  have relative : ∀ name ∈ customary, (Path.ofText name).isAbsolute = false := by decide
  rw [Path.child, Path.join, relative name among]
  rfl

private theorem nodup_customary : (customary.map package.child).Nodup := by
  have apart : ∀ x ∈ customary, ∀ y ∈ customary,
      (Path.ofText x).parts = (Path.ofText y).parts → x = y := by decide
  refine List.Nodup.map_on ?_ (by decide)
  intro x first y second same
  have parts := congrArg Path.parts same
  rw [parts_customary package first, parts_customary package second] at parts
  exact apart x first y second (List.append_cancel_left parts)

theorem mark_eq_sweep (t : FileTree) : mark t package manifest =
    sweep t (roots package manifest) [] (roots package manifest ++ spare package manifest) := by
  have distinct := nodup_customary package
  rw [sweep_markDeclared t [] _ _ fun _ declared => declared, mark, ← roots]
  rcases outcome : markDeclared t [] (roots package manifest) with ⟨touched, fault | marked⟩
  · rfl
  · obtain rfl := markDeclared_marked outcome
    exact markCustomary_eq_sweep touched _ _ distinct fun _ _ => Iff.rfl

end Roots

variable {t : FileTree} {package : Path} {manifest : Members}

theorem checkPath_of_load (loaded : Toml.load t (package.child manifestName) = .ok manifest) :
    checkPath package = .ok () := by
  obtain ⟨bytes, content, opened, -, -⟩ := (Toml.load_eq_ok t _ manifest).mp loaded
  have manifestFits : checkPath (package.child manifestName) = .ok () := by
    rcases outcome : checkPath (package.child manifestName) with fault | _
    · rw [FileTree.read, outcome] at opened
      cases opened
    · rfl
  rw [checkPath_eq_ok] at manifestFits ⊢
  rintro c ⟨part, among, inside⟩
  have extended := (package.child_eq_join (show Component manifestName by decide)).2
  exact manifestFits c ⟨part, by rw [extended]; exact List.mem_append.mpr (.inl among), inside⟩

theorem checkPath_customary (fits : checkPath package = .ok ()) :
    ∀ p ∈ customary.map package.child, checkPath p = .ok () := by
  have plain : ∀ name ∈ customary, ∀ c ∈ name, SystemText.Fits c := by decide
  intro p member
  obtain ⟨name, among, rfl⟩ := List.mem_map.mp member
  exact (checkPath_child package name fits).mpr (plain name among)

private theorem mark_eq_error (fits : checkPath package = .ok ()) (fault : FileFault)
    (alien : ∀ error, fault ≠ .refused error none) :
    (mark t package manifest).2 = .error fault ↔
      (roots package manifest).findSome? t.touchFault? = some fault := by
  have refused : (spare package manifest).findSome?
      (obstacle? t (roots package manifest)) ≠ some fault := by
    intro found
    obtain ⟨p, among, stops⟩ := List.exists_of_findSome?_eq_some found
    have failed := touchFault?_of_error.mp (obstacle?_eq_some.mp stops).1
    have fit := checkPath_customary fits p (List.mem_filter.mp among).1
    rcases (t.touchFault?_eq_some p fault).mp failed with unfit | ⟨-, error, -, same⟩
    · cases fit.symm.trans unfit
    · exact alien error same
  rw [mark_eq_sweep, sweep_error_iff, List.findSome?_append, Option.or_eq_some_iff,
    findSome?_required fun _ declared => declared]
  exact or_iff_left fun both => refused both.2

theorem declared_valid (valid : manifest.Valid) : ∀ root ∈ declared manifest, root.Valid := by
  have single : ∀ target : Value, target.Valid → ∀ root ∈ declaredPath? target, root.Valid := by
    intro target held root found
    have members : target.asMembers.Valid := by
      cases target with
      | object members => exact (Value.valid_object members).mp held
      | _ => exact nofun
    have path := members.field "path"
    rw [declaredPath?] at found
    split at found
    next same =>
      cases found
      rw [same] at path
      exact (Value.valid_text _).mp path
    · cases found
  intro root member
  rw [declared, List.mem_append, Option.mem_toList, List.mem_filterMap] at member
  rcases member with library | ⟨target, among, found⟩
  · exact single _ (valid.field "lib") root library
  · have bins := valid.field "bin"
    split at among
    next targets same =>
      rw [same] at bins
      exact single target ((Value.valid_list targets).mp bins target among) root found
    · cases among

/-- The first declared root that cannot be marked has a null character. -/
def Interrupted (t : FileTree) (package : Path) (manifest : Members) : Prop :=
  ∃ front root back, declared manifest = front ++ root :: back ∧
    (∀ other ∈ front, ∃ touched, t.touch (package.child other) = .ok touched) ∧ 0 ∈ root

/-- Marking ends in a fault that is no refusal exactly if it comes to a null character. -/
theorem touch_eq_error (loaded : Toml.load t (package.child manifestName) = .ok manifest)
    (fault : FileFault) (alien : ∀ error, fault ≠ .refused error none) :
    (touch t package).2 = .error (.file fault) ↔
      fault = .nullCharacter ∧ Interrupted t package manifest := by
  have told : (touch t package).2 = .error (.file fault) ↔
      (mark t package manifest).2 = .error fault := by
    rw [touch, loaded]
    show (mark t package manifest).2.mapError Toml.LoadFault.file = _ ↔ _
    rcases (mark t package manifest).2 with other | marked <;> simp [Except.mapError]
  have whole := checkPath_of_load loaded
  have valid := declared_valid (Toml.load_valid t _ manifest loaded)
  rw [told, mark_eq_error whole fault alien, roots, List.findSome?_map,
    List.findSome?_eq_some_iff]
  simp only [Function.comp_apply, touchFault?_eq_none, touchFault?_eq_some]
  constructor
  · rintro ⟨front, root, back, listed, unfit | ⟨-, error, -, same⟩, before⟩
    · have among : root ∈ declared manifest := by simp [listed]
      rw [checkPath_child_valid package root whole (valid root among)] at unfit
      split at unfit
      next null =>
        cases unfit
        exact ⟨rfl, front, root, back, listed, before, null⟩
      · cases unfit
    · exact absurd same (alien error)
  · rintro ⟨rfl, front, root, back, listed, before, null⟩
    have among : root ∈ declared manifest := by simp [listed]
    refine ⟨front, root, back, listed, .inl ?_, before⟩
    rw [checkPath_child_valid package root whole (valid root among), if_pos null]

end LintCorpus.CrateRoots
