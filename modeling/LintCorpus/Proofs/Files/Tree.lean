import LintCorpus.Proofs.Files.Path
import Mathlib.Data.List.Basic
import Mathlib.Data.List.Nodup

/-!
What paths lead to in a tree of files. A name listed in a directory leads to its place from there,
so whether it can be opened depends on nothing but the length of the whole path.
-/
namespace LintCorpus.FileTree

/-- A name that the system gives to something in a directory. -/
structure FileName (name : Text) : Prop where
  component : Component name
  down : name ≠ ".."
  fits : ∀ c ∈ name, SystemText.Fits c
  canonical : SystemText.canonical name = name
  short : isTooLong name = false

instance (name : Text) : Decidable (FileName name) :=
  decidable_of_iff (Component name ∧ name ≠ ".." ∧ (∀ c ∈ name, SystemText.Fits c) ∧
      SystemText.canonical name = name ∧ isTooLong name = false)
    ⟨fun ⟨a, b, c, d, e⟩ => ⟨a, b, c, d, e⟩, fun ⟨a, b, c, d, e⟩ => ⟨a, b, c, d, e⟩⟩

/-- A tree as the system keeps it: everything has a name, and no place is used twice. -/
structure Proper (t : FileTree) : Prop where
  named : ∀ entry ∈ t.nodes, ∀ name ∈ entry.1, FileName name
  distinct : (t.nodes.map Prod.fst).Nodup

def fileAt? (t : FileTree) (place : List Text) : Option Bytes :=
  match t.node? place with
  | some ⟨.file bytes, _⟩ => some bytes
  | _ => none

theorem fileAt?_eq_some (t : FileTree) (place : List Text) (bytes : Bytes) :
    t.fileAt? place = some bytes ↔ ∃ modified, t.node? place = some ⟨.file bytes, modified⟩ := by
  unfold fileAt?
  rcases t.node? place with _ | ⟨_ | _, modified⟩ <;> simp

theorem isSome_fileAt? (t : FileTree) (place : List Text) :
    (t.fileAt? place).isSome = (t.node? place).any fun n => n.content != .directory := by
  unfold fileAt?
  rcases t.node? place with _ | ⟨_ | _, modified⟩ <;> rfl

variable {t : FileTree} {place : List Text}

theorem read_of_locate {p : Path} (fits : checkPath p = .ok ()) (located : t.locate p = .ok place)
    (bytes : Bytes) (held : t.fileAt? place = some bytes) : t.read p = .ok bytes := by
  obtain ⟨modified, found⟩ := (fileAt?_eq_some t place bytes).mp held
  rw [read, fits, located]
  show (match t.node? place with
    | some ⟨.file bytes, _⟩ => Except.ok bytes
    | _ => _) = _
  rw [found]

private theorem listed_iff (above : List Text) (name : Text) :
    (match above.getLast? with
      | some last => if above.dropLast = place then some last else none
      | none => none) = some name ↔ above = place ++ [name] := by
  constructor
  · intro listed
    split at listed
    next last final =>
      split at listed
      next same =>
        cases listed
        obtain ⟨front, rfl⟩ := List.getLast?_eq_some_iff.mp final
        rw [List.dropLast_concat] at same
        rw [same]
      next => cases listed
    next => cases listed
  · rintro rfl
    rw [List.getLast?_concat, List.dropLast_concat]
    exact if_pos rfl

theorem mem_names (name : Text) :
    name ∈ t.names place ↔ ∃ node, (place ++ [name], node) ∈ t.nodes := by
  rw [names, List.mem_filterMap]
  constructor
  · rintro ⟨⟨above, node⟩, member, listed⟩
    exact ⟨node, (listed_iff above name).mp listed ▸ member⟩
  · rintro ⟨node, member⟩
    exact ⟨_, member, (listed_iff _ name).mpr rfl⟩

section Put

variable (place : List Text) (node : Node) (nodes : List (List Text × Node))

private def replaced : List (List Text × Node) :=
  nodes.map fun entry => if entry.1 = place then (place, node) else entry

private theorem lookup_replaced_self (used : (nodes.lookup place).isSome) :
    (replaced place node nodes).lookup place = some node := by
  induction nodes with
  | nil => cases used
  | cons entry rest ih =>
    rw [replaced, List.map_cons]
    by_cases here : entry.1 = place
    · rw [if_pos here]
      exact List.lookup_cons_self
    · have other : (place == entry.1) = false := beq_eq_false_iff_ne.mpr (Ne.symm here)
      rw [List.lookup_cons, other] at used
      rw [if_neg here, List.lookup_cons, other]
      exact ih used

private theorem lookup_replaced_other (other : List Text) (differs : other ≠ place) :
    (replaced place node nodes).lookup other = nodes.lookup other := by
  induction nodes with
  | nil => rfl
  | cons entry rest ih =>
    rw [replaced, List.map_cons, List.lookup_cons, List.lookup_cons]
    by_cases here : entry.1 = place
    · have missed : (other == place) = false := beq_eq_false_iff_ne.mpr differs
      rw [if_pos here, here, missed]
      exact ih
    · rw [if_neg here]
      cases other == entry.1 with
      | true => rfl
      | false => exact ih

private theorem lookup_put (t : FileTree) (other : List Text) :
    (t.put place node).nodes.lookup other =
      if other = place then some node else t.nodes.lookup other := by
  have used : (t.nodes.any fun entry => entry.1 == place) = (t.nodes.lookup place).isSome := by
    rw [Bool.eq_iff_iff, List.any_eq_true, List.lookup_isSome_iff]
    simp only [beq_iff_eq, eq_comm (a := place)]
  rw [put, used]
  split
  next used =>
    show (replaced place node t.nodes).lookup other = _
    split
    next here => rw [here, lookup_replaced_self place node t.nodes used]
    next differs => rw [lookup_replaced_other place node t.nodes other differs]
  next unused =>
    rw [List.lookup_append]
    split
    next here =>
      rw [here, Option.not_isSome_iff_eq_none.mp unused, List.lookup_cons_self]
      rfl
    next differs =>
      have missed : (other == place) = false := beq_eq_false_iff_ne.mpr differs
      rw [List.lookup_cons, missed]
      exact Option.or_none

theorem rootModified_put (t : FileTree) : (t.put place node).rootModified = t.rootModified := by
  rw [put]
  split <;> rfl

/-- What is put somewhere stands there, and nothing changes elsewhere. The root stays. -/
theorem node?_put (t : FileTree) (other : List Text) : (t.put place node).node? other =
    if other = place ∧ place ≠ [] then some node else t.node? other := by
  cases other with
  | nil =>
    have root : ¬([] = place ∧ place ≠ []) := fun both => both.2 both.1.symm
    have kept : (t.put place node).node? [] =
        some ⟨.directory, (t.put place node).rootModified⟩ := rfl
    rw [if_neg root, kept, rootModified_put]
    rfl
  | cons part rest =>
    show (t.put place node).nodes.lookup (part :: rest) = _
    rw [lookup_put]
    by_cases here : part :: rest = place
    · rw [if_pos here, if_pos ⟨here, here ▸ List.cons_ne_nil part rest⟩]
    · have elsewhere : ¬(part :: rest = place ∧ place ≠ []) := fun both => here both.1
      rw [if_neg here, if_neg elsewhere]
      rfl

theorem workingDirectory_put (t : FileTree) :
    (t.put place node).workingDirectory = t.workingDirectory := by
  rw [put]
  split <;> rfl

theorem clock_put (t : FileTree) : (t.put place node).clock = t.clock := by
  rw [put]
  split <;> rfl

end Put

namespace Proper

theorem nodup_names (proper : t.Proper) : (t.names place).Nodup := by
  have byPlace : t.names place = (t.nodes.map Prod.fst).filterMap fun above =>
      match above.getLast? with
      | some name => if above.dropLast = place then some name else none
      | none => none := by
    rw [List.filterMap_map]
    rfl
  rw [byPlace]
  refine proper.distinct.filterMap fun first second name one two => ?_
  rw [(listed_iff first name).mp one, (listed_iff second name).mp two]

theorem fileName (proper : t.Proper) (name : Text) (listed : name ∈ t.names place) :
    FileName name := by
  obtain ⟨node, member⟩ := (mem_names name).mp listed
  exact proper.named _ member name (by simp)

end Proper

theorem walk_append (here front back : List Text) :
    t.walk here (front ++ back) = t.walk here front >>= fun there => t.walk there back := by
  induction front generalizing here with
  | nil => rfl
  | cons part rest ih =>
    simp only [List.cons_append, walk, ih]
    split_ifs <;> rfl

/-- A component leads up, or down to something in use. -/
theorem walk_cons_eq_ok (here there : List Text) (part : Text) (rest : List Text) :
    t.walk here (part :: rest) = .ok there ↔ t.isDirectoryAt here = true ∧
      (part = ".." ∧ t.walk here.dropLast rest = .ok there ∨
        part ≠ ".." ∧ isTooLong part = false ∧ (t.node? (entryPlace here part)).isNone = false ∧
          t.walk (entryPlace here part) rest = .ok there) := by
  rw [walk]
  cases t.isDirectoryAt here with
  | false => simp
  | true =>
    by_cases up : part = ".."
    · simp [up]
    · cases isTooLong part with
      | true => simp [up]
      | false => cases free : (t.node? (entryPlace here part)).isNone <;> simp [up]

/-- Something stands where a path leads whose last component goes down. -/
theorem isSome_node?_of_walk {parts here there : List Text} {name : Text}
    (final : parts.getLast? = some name) (down : name ≠ "..")
    (walked : t.walk here parts = .ok there) : (t.node? there).isSome = true := by
  induction parts generalizing here with
  | nil => cases final
  | cons part rest ih =>
    obtain ⟨-, ⟨up, above⟩ | ⟨-, -, used, below⟩⟩ := (walk_cons_eq_ok here there part rest).mp walked
    · cases rest with
      | nil =>
        cases final
        exact absurd up down
      | cons next more => exact ih (by rwa [List.getLast?_cons_cons] at final) above
    · cases rest with
      | nil =>
        cases below
        rwa [← Option.not_isNone, Bool.not_eq_true']
      | cons next more => exact ih (by rwa [List.getLast?_cons_cons] at final) below

theorem walk_name (name : Text) (named : FileName name) (inside : t.isDirectoryAt place = true) :
    t.walk place [name] =
      if (t.node? (place ++ [name])).isNone then .error .notFound else .ok (place ++ [name]) := by
  simp only [walk, inside, named.down, named.short, entryPlace, named.canonical]
  simp

/-- A path that leads to a place if it is not too long as a whole. -/
structure Reaches (t : FileTree) (p : Path) (place : List Text) : Prop where
  fits : checkPath p = .ok ()
  walked : t.walk (t.start p) p.parts = .ok place

theorem checkLength_cases (p : Path) :
    checkLength p = .ok () ∨ checkLength p = .error .nameTooLong := by
  unfold checkLength
  split
  · exact .inr rfl
  · exact .inl rfl

theorem reaches_of_isDirectory (p : Path) (opened : t.isDirectory p = .ok true) :
    ∃ place, t.Reaches p place ∧ t.isDirectoryAt place = true ∧ t.list p = .ok (t.names place) := by
  unfold isDirectory leadsTo at opened
  split at opened
  · cases opened
  next fits =>
    split at opened
    next place located =>
      have inside : t.isDirectoryAt place = true := by simpa [isDirectoryAt] using opened
      refine ⟨place, ⟨fits, ?_⟩, inside, ?_⟩
      · rw [locate] at located
        rcases checkLength_cases p with short | long
        · rwa [short] at located
        · rw [long] at located
          cases located
      · rw [list, fits, located]
        show (if t.isDirectoryAt place = true then _ else _) = _
        rw [if_pos inside]
        rfl
    · cases opened
    · cases opened

namespace Reaches

variable {p : Path} (reaches : t.Reaches p place) {name : Text} (named : FileName name)

include reaches named

theorem fits_child : checkPath (p.child name) = .ok () :=
  (checkPath_child p name reaches.fits).mpr named.fits

variable (inside : t.isDirectoryAt place = true)

include inside

theorem walk_child : t.walk (t.start (p.child name)) (p.child name).parts =
    if (t.node? (place ++ [name])).isNone then .error .notFound else .ok (place ++ [name]) := by
  obtain ⟨anchored, extended⟩ := p.child_eq_join named.component
  have begun : t.start (p.child name) = t.start p := by
    rw [start, start, Path.isAbsolute, Path.isAbsolute, anchored]
  rw [begun, extended, walk_append, reaches.walked, ← walk_name name named inside]
  rfl

theorem child (used : (t.node? (place ++ [name])).isSome) :
    t.Reaches (p.child name) (place ++ [name]) where
  fits := reaches.fits_child named
  walked := by
    rw [reaches.walk_child named inside]
    exact if_neg (by rw [Option.isNone_iff_eq_none]; exact Option.isSome_iff_ne_none.mp used)

/-- Behind an open directory only the length of the path keeps a question from being answered. -/
theorem leadsTo_child (test : Content → Bool) : t.leadsTo (p.child name) test =
    if checkLength (p.child name) = .ok () then
      .ok ((t.node? (place ++ [name])).any fun n => test n.content)
    else .error (.refused .nameTooLong (some (p.child name).toText)) := by
  rw [leadsTo, reaches.fits_child named, locate, reaches.walk_child named inside]
  rcases checkLength_cases (p.child name) with short | long
  · rw [short, if_pos rfl]
    rcases found : t.node? (place ++ [name]) with _ | node
    · rfl
    · show Except.ok ((t.node? (place ++ [name])).any fun n => test n.content) = _
      rw [found]
  · have refused : ¬(.error .nameTooLong : Except SystemError Unit) = .ok () := by simp
    rw [long, if_neg refused]
    rfl

theorem read_child (short : checkLength (p.child name) = .ok ()) (bytes : Bytes)
    (held : t.fileAt? (place ++ [name]) = some bytes) : t.read (p.child name) = .ok bytes := by
  obtain ⟨modified, found⟩ := (fileAt?_eq_some t _ bytes).mp held
  refine read_of_locate (reaches.fits_child named) ?_ bytes held
  rw [locate, reaches.walk_child named inside, short, found]
  rfl

end Reaches
end LintCorpus.FileTree
