import LintCorpus.Proofs.Files.Tree
import LintCorpus.Stored.Report

/-!
Writing files. A file that has been written is read back. A text is written as a whole or, if it has
no bytes, leaves the file empty.
-/
namespace LintCorpus

namespace FileTree

variable {t u : FileTree} {p : Path} {place : List Text}

/-- In the other tree there are the same directories, and whatever is free there is free here. -/
structure Extends (t u : FileTree) : Prop where
  base : t.workingDirectory = u.workingDirectory
  directories : ∀ place, t.isDirectoryAt place = u.isDirectoryAt place
  free : ∀ place, (u.node? place).isNone = true → (t.node? place).isNone = true

theorem put_extends (ordinary : t.isDirectoryAt place = false) (bytes : Bytes) (modified : Nat) :
    t.Extends (t.put place ⟨.file bytes, modified⟩) := by
  refine ⟨(t.workingDirectory_put place _).symm, fun other => ?_, fun other free => ?_⟩
  · rw [isDirectoryAt, isDirectoryAt, node?_put]
    split
    next here =>
      rw [here.1]
      exact ordinary
    next => rfl
  · rw [node?_put] at free
    split at free
    · cases free
    · exact free

/-- A path to a name in a directory. -/
structure Enters (t : FileTree) (p : Path) (directory : List Text) : Prop where
  present : p.parts ≠ []
  down : p.name ≠ ".."
  fits : checkLength p = .ok ()
  short : isTooLong p.name = false
  walked : t.walk (t.start p) p.parts.dropLast = .ok directory
  inside : t.isDirectoryAt directory = true

/-- Below a directory that is reached, the last name decides. -/
private theorem locateNew_below {directory : List Text} (present : p.parts ≠ [])
    (down : p.name ≠ "..") (fits : checkLength p = .ok ())
    (walked : t.walk (t.start p) p.parts.dropLast = .ok directory) :
    t.locateNew p =
      if t.isDirectoryAt directory = false then .error .notADirectory
      else if isTooLong p.name then .error .nameTooLong
      else .ok (entryPlace directory p.name) := by
  have proper : ¬(p.parts.isEmpty || decide (p.name = "..")) = true := by
    simp [present, down]
  rw [locateNew, if_neg proper, fits, walked]
  cases inside : t.isDirectoryAt directory <;> cases isTooLong p.name <;>
    simp [bind, Except.bind, pure, Except.pure, inside]

/-- A name that could be made stands below a directory that is reached. -/
private theorem reached_of_locateNew (present : p.parts ≠ []) (down : p.name ≠ "..")
    (located : t.locateNew p = .ok place) : ∃ directory, checkLength p = .ok () ∧
      t.walk (t.start p) p.parts.dropLast = .ok directory := by
  have proper : ¬(p.parts.isEmpty || decide (p.name = "..")) = true := by
    simp [present, down]
  rw [locateNew, if_neg proper] at located
  rcases checkLength_cases p with fits | long
  · rcases walked : t.walk (t.start p) p.parts.dropLast with error | directory
    · rw [fits, walked] at located
      cases located
    · exact ⟨directory, fits, rfl⟩
  · rw [long] at located
    cases located

/-- Where something new would be made is where the path leads, or a name in a directory. -/
theorem locateNew_eq_ok : t.locateNew p = .ok place ↔
    (p.parts = [] ∨ p.name = "..") ∧ t.locate p = .ok place ∨
      ∃ directory, t.Enters p directory ∧ place = entryPlace directory p.name := by
  by_cases whole : p.parts = [] ∨ p.name = ".."
  · have same : t.locateNew p = t.locate p := by
      rw [locateNew, if_pos (by simpa using whole)]
    rw [same]
    refine ⟨fun located => .inl ⟨whole, located⟩, ?_⟩
    rintro (⟨-, located⟩ | ⟨directory, enters, -⟩)
    · exact located
    · exact absurd whole (not_or.mpr ⟨enters.present, enters.down⟩)
  · rw [or_iff_right fun both => whole both.1]
    obtain ⟨present, down⟩ := not_or.mp whole
    constructor
    · intro located
      obtain ⟨directory, fits, walked⟩ := reached_of_locateNew present down located
      rw [locateNew_below present down fits walked] at located
      split at located
      · cases located
      next inside =>
        split at located
        · cases located
        next short =>
          cases located
          exact ⟨directory, ⟨present, down, fits, by simpa using short, walked,
            by simpa using inside⟩, rfl⟩
    · rintro ⟨directory, enters, rfl⟩
      rw [locateNew_below enters.present enters.down enters.fits enters.walked, enters.inside,
        enters.short]
      rfl

theorem Enters.locate {directory : List Text} (enters : t.Enters p directory)
    (used : (t.node? (entryPlace directory p.name)).isNone = false) :
    t.locate p = .ok (entryPlace directory p.name) := by
  have final : p.parts = p.parts.dropLast ++ [p.name] := by
    rw [Path.name, List.getLast?_eq_some_getLast enters.present, Option.getD_some,
      List.dropLast_append_getLast]
  have last : t.walk directory [p.name] = .ok (entryPlace directory p.name) :=
    (walk_cons_eq_ok _ _ _ _).mpr ⟨enters.inside, .inr ⟨enters.down, enters.short, used, rfl⟩⟩
  rw [FileTree.locate, enters.fits, final, walk_append]
  change (t.walk (t.start p) p.parts.dropLast >>= fun there => t.walk there [p.name]) = _
  rw [enters.walked]
  exact last

namespace Extends

variable (extension : t.Extends u)

include extension

theorem walk {here there parts : List Text} (walked : t.walk here parts = .ok there) :
    u.walk here parts = .ok there := by
  induction parts generalizing here with
  | nil => exact walked
  | cons part rest ih =>
    rw [walk_cons_eq_ok] at walked ⊢
    obtain ⟨inside, ⟨up, above⟩ | ⟨down, short, used, below⟩⟩ := walked
    · exact ⟨extension.directories here ▸ inside, .inl ⟨up, ih above⟩⟩
    · refine ⟨extension.directories here ▸ inside, .inr ⟨down, short, ?_, ih below⟩⟩
      exact Bool.eq_false_iff.mpr fun free => Bool.eq_false_iff.mp used (extension.free _ free)

theorem locate (located : t.locate p = .ok place) : u.locate p = .ok place := by
  have same : t.start p = u.start p := by rw [start, start, extension.base]
  rw [FileTree.locate] at located ⊢
  rcases checkLength_cases p with short | long
  · rw [short] at located ⊢
    rw [same] at located
    exact extension.walk located
  · rw [long] at located
    cases located

theorem enters {directory : List Text} (entered : t.Enters p directory) :
    u.Enters p directory := by
  refine { entered with walked := ?_, inside := ?_ }
  · rw [start, ← extension.base]
    exact extension.walk entered.walked
  · rw [← extension.directories]
    exact entered.inside

end Extends

theorem write_eq_ok (bytes : Bytes) : t.write p bytes = .ok u ↔ checkPath p = .ok () ∧
    ∃ place, t.locateNew p = .ok place ∧ t.isDirectoryAt place = false ∧
      u = t.put place ⟨.file bytes, t.clock⟩ := by
  rw [write]
  rcases checkPath p with fault | _
  · exact iff_of_false nofun nofun
  rcases t.locateNew p with error | place
  · exact iff_of_false nofun nofun
  change (if t.isDirectoryAt place then Except.error (FileFault.refused .isADirectory (some p.toText))
    else Except.ok (t.put place ⟨.file bytes, t.clock⟩)) = Except.ok u ↔ _
  constructor
  · intro written
    cases inside : t.isDirectoryAt place with
    | true =>
      rw [inside] at written
      cases written
    | false =>
      rw [inside] at written
      cases written
      exact ⟨rfl, place, rfl, inside, rfl⟩
  · rintro ⟨-, other, located, ordinary, rfl⟩
    cases located
    rw [ordinary]
    rfl

variable {bytes : Bytes} (written : t.write p bytes = .ok u)

include written

theorem read_write : u.read p = .ok bytes := by
  obtain ⟨fits, place, new, ordinary, rfl⟩ := (write_eq_ok bytes).mp written
  have extension := put_extends ordinary bytes t.clock
  have deep : place ≠ [] := by
    rintro rfl
    cases ordinary
  have stands : (t.put place ⟨.file bytes, t.clock⟩).node? place = some ⟨.file bytes, t.clock⟩ := by
    rw [node?_put, if_pos ⟨rfl, deep⟩]
  have located : (t.put place ⟨.file bytes, t.clock⟩).locate p = .ok place := by
    rcases locateNew_eq_ok.mp new with ⟨-, located⟩ | ⟨directory, entered, rfl⟩
    · exact extension.locate located
    · exact (extension.enters entered).locate (by rw [stands]; rfl)
  exact read_of_locate fits located bytes ((fileAt?_eq_some _ _ _).mpr ⟨_, stands⟩)

theorem write_other (other : Bytes) : ∃ rewritten, t.write p other = .ok rewritten := by
  obtain ⟨fits, place, new, ordinary, -⟩ := (write_eq_ok bytes).mp written
  exact ⟨_, (write_eq_ok other).mpr ⟨fits, place, new, ordinary, rfl⟩⟩

omit written

/-- A path that a file can be written to once the directories above it are made. -/
def Writable (t : FileTree) (p : Path) : Prop :=
  ∃ made emptied, t.ensureDirectories p.parent = .ok made ∧ made.write p [] = .ok emptied

end FileTree

namespace StoredReport

variable {t : FileTree} {p : Path} (writable : t.Writable p) {content : Text}

include writable

theorem writeFile_encodable (encodable : content.Encodable) :
    ∃ written, writeFile t p content = (written, .ok ()) ∧
      written.read p = .ok (Utf8.encode content) := by
  obtain ⟨made, emptied, ready, first⟩ := writable
  obtain ⟨written, second⟩ := FileTree.write_other first (Utf8.encode content)
  refine ⟨written, ?_, FileTree.read_write second⟩
  rw [writeFile, ready]
  simp only [FileTree.writeText, first, Utf8.encodeStrict_of_encodable encodable, second]

/-- A text without bytes is refused only after the file is emptied: the tree is the one that writing
the empty text leaves. -/
theorem writeFile_surrogate (surrogate : ¬content.Encodable) :
    ∃ emptied fault, writeFile t p content = (emptied, .error (.unencodable fault)) ∧
      writeFile t p [] = (emptied, .ok ()) ∧ emptied.read p = .ok [] := by
  obtain ⟨made, emptied, ready, first⟩ := writable
  obtain ⟨fault, refused⟩ := Utf8.encodeStrict_of_surrogate surrogate
  have nothing : Utf8.encodeStrict [] = .ok [] := rfl
  refine ⟨emptied, fault, ?_, ?_, FileTree.read_write first⟩
  · rw [writeFile, ready]
    simp only [FileTree.writeText, first, refused]
  · rw [writeFile, ready]
    simp only [FileTree.writeText, first, nothing]

end StoredReport
end LintCorpus
