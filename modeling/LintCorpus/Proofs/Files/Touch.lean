import LintCorpus.Proofs.Files.Tree

/-!
Marking files as changed. Only times change, so every path leads to the same place afterwards, and
whether another path can be marked does not depend on what was marked before.
-/
namespace LintCorpus.FileTree

/-- What stands at a place, whenever it was changed. -/
def content? (t : FileTree) (place : List Text) : Option Content :=
  (t.node? place).map Node.content

structure SameShape (t u : FileTree) : Prop where
  base : t.workingDirectory = u.workingDirectory
  content : ∀ place, t.content? place = u.content? place

namespace SameShape

variable {t u : FileTree} (same : SameShape t u)

include same

theorem isDirectoryAt (place : List Text) : t.isDirectoryAt place = u.isDirectoryAt place := by
  have directory : ∀ w : FileTree,
      w.isDirectoryAt place = (w.content? place).any (· == .directory) := by
    intro w
    rw [FileTree.isDirectoryAt, content?, Option.any_map]
  rw [directory, directory, same.content]

theorem isNone_node? (place : List Text) : (t.node? place).isNone = (u.node? place).isNone := by
  have unused : ∀ w : FileTree, (w.node? place).isNone = (w.content? place).isNone := by
    intro w
    rw [content?, Option.isNone_map]
  rw [unused, unused, same.content]

theorem walk (here parts : List Text) : t.walk here parts = u.walk here parts := by
  induction parts generalizing here with
  | nil => rfl
  | cons part rest ih =>
    rw [FileTree.walk, FileTree.walk, same.isDirectoryAt, same.isNone_node?, ih, ih]

theorem locate (p : Path) : t.locate p = u.locate p := by
  rw [FileTree.locate, FileTree.locate, start, start, same.base]
  simp only [same.walk]

end SameShape

/-- Some path leads to the place. -/
def Led (t : FileTree) (paths : List Path) (place : List Text) : Prop :=
  ∃ p ∈ paths, t.locate p = .ok place

/-- All that some paths lead to has been marked as changed now, and nothing else is different. -/
structure Marked (t u : FileTree) (paths : List Path) : Prop where
  base : t.workingDirectory = u.workingDirectory
  clock : t.clock = u.clock
  marked : ∀ place, t.Led paths place →
    u.node? place = (t.node? place).map fun node => { node with modified := t.clock }
  kept : ∀ place, ¬t.Led paths place → u.node? place = t.node? place

namespace Marked

variable {t u v : FileTree} {front back : List Path}

theorem nothing (t : FileTree) : Marked t t [] where
  base := rfl
  clock := rfl
  marked := by rintro place ⟨p, ⟨⟩, -⟩
  kept := fun _ _ => rfl

theorem sameShape (marked : Marked t u front) : SameShape t u := by
  refine ⟨marked.base, fun place => ?_⟩
  rw [content?, content?]
  by_cases led : t.Led front place
  · rw [marked.marked place led, Option.map_map]
    rfl
  · rw [marked.kept place led]

theorem trans (first : Marked t u front) (second : Marked u v back) :
    Marked t v (front ++ back) := by
  have led : ∀ place, t.Led (front ++ back) place ↔ t.Led front place ∨ u.Led back place := by
    intro place
    simp only [Led, List.mem_append, or_and_right, exists_or, first.sameShape.locate]
  refine ⟨first.base.trans second.base, first.clock.trans second.clock, fun place among => ?_,
    fun place apart => ?_⟩
  · by_cases later : u.Led back place
    · rw [second.marked place later, ← first.clock]
      by_cases before : t.Led front place
      · rw [first.marked place before, Option.map_map]
        rfl
      · rw [first.kept place before]
    · rw [second.kept place later]
      exact first.marked place (((led place).mp among).resolve_right later)
  · rw [led, not_or] at apart
    rw [second.kept place apart.2, first.kept place apart.1]

theorem congr (marked : Marked t u front) (same : ∀ place, t.Led back place ↔ t.Led front place) :
    Marked t u back where
  base := marked.base
  clock := marked.clock
  marked := fun place led => marked.marked place ((same place).mp led)
  kept := fun place apart => marked.kept place (mt (same place).mpr apart)

end Marked

private theorem marked_of_locate {t u : FileTree} {p : Path} {place : List Text}
    (located : t.locate p = .ok place) (base : t.workingDirectory = u.workingDirectory)
    (clock : t.clock = u.clock)
    (here : u.node? place = (t.node? place).map fun node => { node with modified := t.clock })
    (elsewhere : ∀ other, other ≠ place → u.node? other = t.node? other) : Marked t u [p] := by
  have led : ∀ other, t.Led [p] other ↔ other = place := by
    intro other
    simp [Led, located, eq_comm]
  refine ⟨base, clock, fun other among => ?_, fun other apart => ?_⟩
  · rw [(led other).mp among]
    exact here
  · exact elsewhere other (mt (led other).mpr apart)

private theorem touch_of_locate (t : FileTree) (p : Path) (place : List Text)
    (fits : checkPath p = .ok ()) (located : t.locate p = .ok place) :
    t.touch p = .ok (match t.node? place with
      | some node =>
        if place.isEmpty then { t with rootModified := t.clock }
        else t.put place { node with modified := t.clock }
      | none => t) := by
  rw [touch, fits, located]
  dsimp only [Except.mapError, bind, Except.bind]
  rcases t.node? place with _ | node <;> rfl

theorem touch_cases (t : FileTree) (p : Path) :
    (∃ fault, checkPath p = .error fault ∧ t.touch p = .error fault) ∨
    checkPath p = .ok () ∧
      ((∃ error, t.locate p = .error error ∧ t.touch p = .error (.refused error none)) ∨
        ∃ place touched, t.locate p = .ok place ∧ t.touch p = .ok touched ∧
          Marked t touched [p]) := by
  rcases fits : checkPath p with fault | _
  · refine .inl ⟨fault, rfl, ?_⟩
    rw [touch, fits]
    rfl
  refine .inr ⟨rfl, ?_⟩
  rcases located : t.locate p with error | place
  · refine .inl ⟨error, rfl, ?_⟩
    rw [touch, fits, located]
    rfl
  · refine .inr ⟨place, _, rfl, t.touch_of_locate p place fits located, ?_⟩
    -- Nothing may stand where the path leads, the root keeps its time apart from the other places.
    rcases found : t.node? place with _ | node
    · exact marked_of_locate located rfl rfl (by rw [found]; rfl) fun _ _ => rfl
    · cases place with
      | nil =>
        cases found
        refine marked_of_locate located rfl rfl rfl fun other differs => ?_
        obtain ⟨part, rest, rfl⟩ := List.exists_cons_of_ne_nil differs
        rfl
      | cons part rest =>
        change Marked t (t.put (part :: rest) { node with modified := t.clock }) [p]
        refine marked_of_locate located (t.workingDirectory_put _ _).symm (t.clock_put _ _).symm ?_
          fun other differs => ?_
        · rw [node?_put, if_pos ⟨rfl, List.cons_ne_nil part rest⟩, found]
          rfl
        · rw [node?_put, if_neg fun both => differs both.1]

theorem marked_touch {t touched : FileTree} {p : Path} (done : t.touch p = .ok touched) :
    Marked t touched [p] := by
  rcases t.touch_cases p with ⟨fault, -, failed⟩ | ⟨-, ⟨error, -, failed⟩ | found⟩
  · cases done.symm.trans failed
  · cases done.symm.trans failed
  · obtain ⟨place, other, -, same, marked⟩ := found
    cases done.symm.trans same
    exact marked

def touchFault? (t : FileTree) (p : Path) : Option FileFault :=
  match t.touch p with
  | .error fault => some fault
  | .ok _ => none

theorem touchFault?_eq_none (t : FileTree) (p : Path) :
    t.touchFault? p = none ↔ ∃ touched, t.touch p = .ok touched := by
  rw [touchFault?]
  rcases t.touch p with fault | touched <;> simp

theorem touchFault?_eq_some (t : FileTree) (p : Path) (fault : FileFault) :
    t.touchFault? p = some fault ↔ checkPath p = .error fault ∨
      checkPath p = .ok () ∧ ∃ error, t.locate p = .error error ∧ fault = .refused error none := by
  rw [touchFault?]
  rcases t.touch_cases p with ⟨other, unfit, failed⟩ | ⟨fits, ⟨error, lost, failed⟩ | found⟩
  · simp [unfit, failed]
  · simp [fits, lost, failed, eq_comm]
  · obtain ⟨place, touched, located, marked, -⟩ := found
    simp [fits, located, marked]

theorem touchFault?_of_error {t : FileTree} {p : Path} {fault : FileFault} :
    t.touch p = .error fault ↔ t.touchFault? p = some fault := by
  rw [touchFault?]
  rcases t.touch p with other | touched <;> simp

theorem touchFault?_of_fits {t : FileTree} {p : Path} (fits : checkPath p = .ok ()) :
    t.touchFault? p = none ↔ ∃ place, t.locate p = .ok place := by
  rw [touchFault?_eq_none]
  rcases t.touch_cases p with ⟨other, unfit, -⟩ | ⟨-, ⟨error, lost, failed⟩ | found⟩
  · cases fits.symm.trans unfit
  · simp [lost, failed]
  · obtain ⟨place, touched, located, marked, -⟩ := found
    simp [located, marked]

/-- Below a directory only what is there can be marked. -/
theorem holds_iff_touchFault? {t : FileTree} {p : Path} (fits : checkPath p = .ok ()) {name : Text}
    (final : p.parts.getLast? = some name) (down : name ≠ "..") :
    t.holds p = .ok true ↔ t.touchFault? p = none := by
  rw [touchFault?_of_fits fits, holds, leadsTo, fits]
  rcases located : t.locate p with error | place
  · cases error <;> simp
  · have used : (t.node? place).isSome = true := by
      rw [locate] at located
      rcases checkLength_cases p with short | long
      · rw [short] at located
        exact isSome_node?_of_walk final down located
      · rw [long] at located
        cases located
    simp [used]

theorem SameShape.touchFault? {t u : FileTree} (same : SameShape t u) (p : Path) :
    t.touchFault? p = u.touchFault? p := by
  refine Option.ext fun fault => ?_
  rw [touchFault?_eq_some, touchFault?_eq_some, same.locate]

end LintCorpus.FileTree
