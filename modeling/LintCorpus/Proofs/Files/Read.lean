import LintCorpus.Proofs.Failure
import LintCorpus.Proofs.Files.Path
import LintCorpus.Toml.Load

/-!
Reading files as text. A caller expects the system's refusals and reports them. What it may not
expect is a path that has no form for the system, bytes that are no text, and, where it only asks
what a path leads to, one that is too long.
-/
namespace LintCorpus

namespace FileTree

variable (t : FileTree) (p : Path) {P : FileFault → Prop}

/-- The file that the path leads to, if any, is text. -/
def Decodes : Prop :=
  ∀ bytes, t.read p = .ok bytes → ∃ content, Utf8.decodeStrict bytes = .ok content

/-- The path has a form for the system, and the file that it leads to, if any, is text. -/
structure Textual : Prop where
  path : checkPath p = .ok ()
  decodes : t.Decodes p

/-- Neither the path nor a name on the way is found to be too long. -/
def WithinLimits : Prop := checkPath p = .ok () → t.locate p ≠ .error .nameTooLong

/-- The first of some paths that leads to a file can be told, and the file is text. -/
def Consultable : List Path → Prop
  | [] => True
  | p :: rest => t.WithinLimits p ∧ (t.isFile p = .ok true → t.Decodes p) ∧
      (t.isFile p = .ok false → Consultable rest)

theorem textual_iff : t.Textual p ↔ checkPath p = .ok () ∧ t.Decodes p :=
  ⟨fun textual => ⟨textual.path, textual.decodes⟩, fun both => ⟨both.1, both.2⟩⟩

theorem textual_iff_decodes (fits : checkPath p = .ok ()) : t.Textual p ↔ t.Decodes p := by
  rw [textual_iff, and_iff_right fits]

theorem failsOnly_checkPath (null : ¬P .nullCharacter) (unfit : ∀ fault, ¬P (.unencodable fault)) :
    FailsOnly P (checkPath p) ↔ checkPath p = .ok () := by
  rcases checkPath_cases p with fits | ends | ⟨fault, alien⟩
  · simp [fits]
  · simp [ends, null]
  · simp [alien, unfit]

theorem failsOnly_read (refusal : ∀ error path, P (.refused error path)) :
    FailsOnly P (t.read p) ↔ FailsOnly P (checkPath p) := by
  rw [read, failsOnly_bind, and_iff_left_iff_imp]
  intro _ _ _
  rw [failsOnly_bind, naming, failsOnly_mapError]
  refine ⟨fun _ _ => refusal _ _, fun place _ => ?_⟩
  split
  · exact failsOnly_ok _
  · exact (failsOnly_error _).mpr (refusal _ _)

theorem refuses_read : FailsOnly FileFault.IsRefusal (t.read p) ↔ checkPath p = .ok () :=
  (t.failsOnly_read p fun _ _ => trivial).trans (failsOnly_checkPath p id fun _ => id)

theorem refuses_readText : FailsOnly FileFault.IsRefusal (t.readText p) ↔ t.Textual p := by
  rw [readText, failsOnly_bind, refuses_read, textual_iff]
  refine and_congr_right fun _ => forall₂_congr fun bytes _ => ?_
  rcases Utf8.decodeStrict bytes with fault | content
  · simp [FileFault.IsRefusal]
  · exact iff_of_true (failsOnly_ok _) ⟨content, rfl⟩

theorem leadsTo_ok_iff (test : Content → Bool) :
    (∃ found, t.leadsTo p test = .ok found) ↔ t.WithinLimits p := by
  rw [leadsTo, WithinLimits]
  rcases checkPath p with fault | _
  · exact iff_of_true ⟨false, rfl⟩ nofun
  · rcases t.locate p with error | place
    · cases error <;> simp
    · simp

theorem fits_of_leadsTo {test : Content → Bool} (found : t.leadsTo p test = .ok true) :
    checkPath p = .ok () := by
  rw [leadsTo] at found
  rcases fits : checkPath p with fault | _
  · rw [fits] at found
    cases found
  · rfl

end FileTree

namespace Toml

variable {ε : Type} (report : LoadFault → ε) (t : FileTree) (p : Path)

@[simp] theorem isReported_file (fault : FileFault) :
    (LoadFault.toFailure report (.file fault)).IsReported ↔ fault.IsRefusal :=
  Failure.isReported_ofFile (fun refused => report (.file refused)) fault

@[simp] theorem isReported_document (fault : DocumentFault) :
    (LoadFault.toFailure report (.document fault)).IsReported ↔ True := Iff.rfl

theorem settled_load :
    Settled ((load t p).mapError (LoadFault.toFailure report)) ↔ t.Textual p := by
  simp only [settled_mapError, load, failsOnly_bind, failsOnly_mapError, isReported_file,
    FileTree.refuses_read, mapError_eq_ok, FileTree.textual_iff]
  refine and_congr_right fun _ => forall₂_congr fun bytes _ => ?_
  rcases Utf8.decodeStrict bytes with fault | content
  · simp [FileFault.IsRefusal]
  · simp [failsOnly_true]

end Toml

end LintCorpus
