import LintCorpus.CommandLine.Arguments
import LintCorpus.Proofs.Failure
import LintCorpus.Proofs.Files.Path

/-!
Paths on a command line. One that has no form for the system ends the program while the arguments
are read, so a command only ever works with paths that have one.
-/
namespace LintCorpus

open FileTree

namespace CommandLine

def Points (given : Text) : Prop := ∀ c ∈ given, c < 0x110000

instance (given : Text) : Decidable (Points given) := by unfold Points; infer_instance

theorem Points.subset {given part : Text} (points : Points given) (inside : part ⊆ given) :
    Points part := fun c member => points c (inside member)

namespace OptionForm

theorem pathValue_fits {given : Text} {v : OptionValue} (points : Points given)
    (read : pathValue given = .ok v) : ∃ p, v = .path p ∧ checkPath p = .ok () := by
  rw [pathValue] at read
  split at read
  · cases read
  next bytes encoded =>
    split at read
    · cases read
    next lasting =>
      cases read
      have encodes : SystemText.firstFault? given = none := by
        rw [SystemText.encode] at encoded
        split at encoded
        · assumption
        · cases encoded
      refine ⟨_, rfl, (checkPath_ofText given).mpr fun c member => ?_⟩
      refine SystemText.fits_of_encodes (points c member) ?_
        ((SystemText.firstFault?_eq_none given).mp encodes c member)
      rintro rfl
      exact lasting (List.elem_iff.mpr member)

theorem read_fits {form : OptionForm} {given : Text} {p : Path} (points : Points given)
    (read : form.read given = .ok (.path p)) : checkPath p = .ok () := by
  rw [OptionForm.read] at read
  split at read
  · cases read
  · cases read
  · obtain ⟨q, same, fits⟩ := pathValue_fits points read
    cases same
    exact fits
  · split at read
    · cases read
    · split at read <;> cases read
  · split at read
    · cases read
    · split at read <;> cases read

end OptionForm

section Scan

variable {forms : List OptionForm} {rest after : List Text} {form : OptionForm}

/-- The texts of options and the arguments that are left are parts of arguments. -/
def Kept (taken : List (OptionForm × Text) × List Text) : Prop :=
  (∀ entry ∈ taken.1, Points entry.2) ∧ ∀ argument ∈ taken.2, Points argument

theorem takeValue_kept {name : Text} {entry : OptionForm × Text}
    (left : ∀ argument ∈ rest, Points argument)
    (taken : takeValue form name rest = .ok (entry, after)) : Kept ([entry], after) := by
  cases rest with
  | nil => cases taken
  | cons value more =>
    cases taken
    obtain ⟨first, later⟩ := List.forall_mem_cons.mp left
    exact ⟨by simpa using first, later⟩

theorem longOption_kept {attached : Option Text} {entry : OptionForm × Text}
    (value : ∀ given, attached = some given → Points given)
    (left : ∀ argument ∈ rest, Points argument)
    (taken : longOption form attached rest = .ok (entry, after)) : Kept ([entry], after) := by
  unfold longOption at taken
  split at taken
  · split at taken
    · exact takeValue_kept left taken
    · cases taken
      exact ⟨by simp [Points], left⟩
  next given =>
    split at taken
    · cases taken
      exact ⟨by simpa using value given rfl, left⟩
    · cases taken

theorem shortOptions_kept {given : List (OptionForm × Text)} {letters : Text}
    {taken : List (OptionForm × Text) × List Text} (before : ∀ entry ∈ given, Points entry.2)
    (points : Points letters) (left : ∀ argument ∈ rest, Points argument)
    (done : shortOptions forms given rest letters = .ok taken) : Kept taken := by
  have reversed : ∀ {entries : List (OptionForm × Text)}, (∀ entry ∈ entries, Points entry.2) →
      ∀ entry ∈ entries.reverse, Points entry.2 := fun all entry member =>
    all entry (List.mem_reverse.mp member)
  induction letters generalizing given with
  | nil =>
    cases done
    exact ⟨reversed before, left⟩
  | cons c more ih =>
    have later := points.subset (List.subset_cons_self c more)
    rw [shortOptions] at done
    split at done
    · cases done
    next form _ =>
      split at done
      · exact ih (List.forall_mem_cons.mpr ⟨by simp [Points], before⟩) later done
      split at done
      · obtain ⟨⟨entry, after⟩, one, made⟩ := bind_eq_ok.mp done
        cases made
        obtain ⟨value, behind⟩ := takeValue_kept left one
        exact ⟨reversed (List.forall_mem_cons.mpr ⟨value entry (by simp), before⟩), behind⟩
      · cases done
        exact ⟨reversed (List.forall_mem_cons.mpr ⟨later, before⟩), left⟩

theorem takeOptions_kept {argument : Text} {taken : List (OptionForm × Text) × List Text}
    (points : Points argument) (left : ∀ argument ∈ rest, Points argument)
    (done : takeOptions forms argument rest = .ok taken) : Kept taken := by
  have attached : ∀ value, (splitAttached argument).2 = some value → Points value := by
    intro value attached
    rw [splitAttached] at attached
    split at attached
    · cases attached
    next c more dropped =>
      cases attached
      have cut := List.drop_subset (argument.takeWhile (· != '='.toNat)).length argument
      rw [dropped] at cut
      exact points.subset (List.Subset.trans (List.subset_cons_self c value) cut)
  rw [takeOptions] at done
  dsimp only at done
  split at done
  · obtain ⟨⟨entry, after⟩, one, made⟩ := bind_eq_ok.mp done
    cases made
    exact longOption_kept attached left one
  · split at done
    · cases done
    · have letters := points.subset (List.drop_subset 1 argument)
      exact shortOptions_kept (List.forall_mem_nil _) letters left done

/-- All texts of a scan are parts of arguments. -/
def Scan.Kept (s : Scan) : Prop :=
  (∀ entry ∈ s.options, Points entry.2) ∧ ∀ argument ∈ s.others, Points argument

theorem scanFrom_kept (fuel : Nat) {s u : Scan} {given : List Text} (before : s.Kept)
    (points : ∀ argument ∈ given, Points argument) (done : scanFrom forms fuel s given = .ok u) :
    u.Kept := by
  induction fuel generalizing s given with
  | zero =>
    cases done
    exact before
  | succ fuel ih =>
    cases given with
    | nil =>
      cases done
      exact before
    | cons argument rest =>
      obtain ⟨first, later⟩ := List.forall_mem_cons.mp points
      rw [scanFrom] at done
      split at done
      · cases done
        exact ⟨before.1, List.forall_mem_append.mpr ⟨before.2, later⟩⟩
      split at done
      · obtain ⟨⟨options, after⟩, taken, done⟩ := bind_eq_ok.mp done
        obtain ⟨kept, left⟩ := takeOptions_kept first later taken
        refine ih ?_ left done
        exact ⟨List.forall_mem_append.mpr ⟨before.1, kept⟩, before.2⟩
      · refine ih ?_ later done
        exact ⟨before.1, List.forall_mem_append.mpr ⟨before.2, by simpa using first⟩⟩

end Scan

namespace Arguments

theorem readPaths_fits {names given : List Text} {ps : List Path}
    (points : ∀ argument ∈ given, Points argument) (read : readPaths names given = .ok ps) :
    ∀ p ∈ ps, checkPath p = .ok () := by
  induction names generalizing given ps with
  | nil =>
    cases given with
    | nil =>
      cases read
      exact nofun
    | cons _ _ => cases read
  | cons name rest ih =>
    cases given with
    | nil => cases read
    | cons argument more =>
      obtain ⟨first, after⟩ := List.forall_mem_cons.mp points
      rw [readPaths] at read
      obtain ⟨v, taken, read⟩ := bind_eq_ok.mp read
      obtain ⟨p, rfl, fits⟩ := OptionForm.pathValue_fits first taken
      obtain ⟨others, later, made⟩ := bind_eq_ok.mp read
      cases made
      rintro q (_ | ⟨_, member⟩)
      · exact fits
      · exact ih after later q member

/-- Every path that is given has a form for the system. -/
structure Fit (a : Arguments) : Prop where
  options : ∀ entry ∈ a.options, ∀ p, entry.2 = .path p → checkPath p = .ok ()
  paths : ∀ p ∈ a.paths, checkPath p = .ok ()

theorem mem_of_mem_lastGiven {options : List (OptionForm × Text)} {entry : OptionForm × Text}
    (last : entry ∈ lastGiven options) : entry ∈ options := by
  obtain ⟨form, -, found⟩ := List.mem_filterMap.mp last
  exact List.mem_reverse.mp (List.mem_of_find?_eq_some found)

theorem parse_fits {forms : List OptionForm} {names given : List Text} {a : Arguments}
    (points : ∀ argument ∈ given, Points argument) (parsed : parse forms names given = .ok a) :
    a.Fit := by
  rw [parse] at parsed
  obtain ⟨scanned, scanning, parsed⟩ := bind_eq_ok.mp parsed
  have first : Scan.Kept {} := ⟨List.forall_mem_nil _, List.forall_mem_nil _⟩
  have kept : scanned.Kept := scanFrom_kept _ first points (mapError_eq_ok.mp scanning)
  split at parsed
  · cases parsed
    exact ⟨nofun, nofun⟩
  · obtain ⟨options, taken, parsed⟩ := bind_eq_ok.mp parsed
    obtain ⟨paths, read, made⟩ := bind_eq_ok.mp parsed
    cases made
    refine ⟨?_, readPaths_fits kept.2 read⟩
    rintro entry member p same
    obtain ⟨given, last, made⟩ := exists_of_mem_mapM taken entry member
    obtain ⟨v, read, made⟩ := bind_eq_ok.mp made
    cases made
    cases same
    exact OptionForm.read_fits (kept.1 given (mem_of_mem_lastGiven last)) read

theorem Fit.path? {a : Arguments} (fit : a.Fit) {long : Text} {p : Path}
    (given : a.path? long = some p) : checkPath p = .ok () := by
  rw [Arguments.path?] at given
  split at given
  next q found =>
    cases given
    rw [find?, Option.map_eq_some_iff] at found
    obtain ⟨entry, found, value⟩ := found
    exact fit.options entry (List.mem_of_find?_eq_some found) _ value
  · cases given

theorem Fit.headD_drop {a : Arguments} (fit : a.Fit) (n : Nat) :
    checkPath ((a.paths.drop n).headD default) = .ok () := by
  rcases left : a.paths.drop n with _ | ⟨p, rest⟩
  · decide
  · refine fit.paths p (List.drop_subset n a.paths ?_)
    rw [left]
    exact List.mem_cons_self

end Arguments
end CommandLine

end LintCorpus
