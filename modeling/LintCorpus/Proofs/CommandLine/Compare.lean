import LintCorpus.Proofs.CommandLine.Arguments
import LintCorpus.Proofs.CommandLine.Session
import LintCorpus.Proofs.Files.Read
import LintCorpus.Proofs.Stored.Assign

/-!
Comparing two results that are stored. What is loaded is valid; a file that cannot be loaded ends
the command with the status for that, unless it is no text.
-/
namespace LintCorpus

namespace StoredReport

variable {t : FileTree} {p : Path}

theorem settled_load : Settled (load t p) ↔ t.Textual p := by
  simp only [load, settled_bind, settled_mapError, Failure.isReported_ofFile,
    FileTree.refuses_readText, and_iff_left_iff_imp]
  exact fun _ _ _ => failsOnly_true _

theorem ofText_valid {content : Text} {r : CorpusResult} (read : ofText p content = .ok r) :
    r.Valid := by
  rw [ofText] at read
  split at read
  · cases read
  · dsimp only at read
    split at read
    · next checked =>
      cases read
      exact CorpusResult.ofValue_valid (v := .object _) checked
    · cases read
  · cases read

theorem load_valid {r : CorpusResult} (loaded : load t p = .ok r) : r.Valid := by
  rw [load, bind_eq_ok] at loaded
  obtain ⟨content, -, read⟩ := loaded
  exact ofText_valid (mapError_eq_ok.mp read)

end StoredReport

namespace CommandLine

open StoredReport

namespace Arguments

def baseline (a : Arguments) : Path := a.paths.headD default

def current (a : Arguments) : Path := (a.paths.drop 1).headD default

end Arguments

def Loads (t : FileTree) (p : Path) : Prop := ∃ r, load t p = .ok r

variable (a : Arguments) (s : Session)

def loaded (t : FileTree) : Except (Failure ReportFault) (CorpusResult × CorpusResult) := do
  let before ← load t a.baseline
  let after ← load t a.current
  return (before, after)

theorem finish_compare : (compare a).finish s = match loaded a s.files with
    | .error failure => s.halted (!a.hasFlag "--no-emoji") (failure.mapReported ReportFault.message)
    | .ok (before, after) =>
      let d := ResultDiff.between before after
      let told := s.told (!a.hasFlag "--no-emoji") (differentLints before after)
      ⟨.exited (if a.hasFlag "--fail-on-introduced" && !d.introduced.isEmpty then 1 else 0),
        { told with output := s.output ++ (Report.renderDiff d).withoutSequences }⟩ := by
  rw [compare, loaded, Arguments.baseline, Arguments.current]
  simp only [bind_assoc]
  rw [Step.finish_files, Step.finish_require]
  rcases load s.files (a.paths.headD default) with failure | before
  · rfl
  dsimp only
  rw [Step.finish_files, Step.finish_require]
  rcases load s.files ((a.paths.drop 1).headD default) with failure | after
  · rfl
  · rfl

theorem settled_loaded (t : FileTree) : Settled (loaded a t) ↔
    t.Textual a.baseline ∧ (Loads t a.baseline → t.Textual a.current) := by
  rw [loaded, settled_bind, settled_load]
  refine and_congr_right fun _ => ?_
  have next : ∀ before : CorpusResult,
      Settled (do let after ← load t a.current; return (before, after)) ↔
        t.Textual a.current := by
    intro before
    rw [settled_bind, settled_load, and_iff_left_iff_imp]
    exact fun _ after _ => settled_ok (before, after)
  simp only [next, Loads, forall_exists_index]

theorem loaded_iff (t : FileTree) :
    (∃ both, loaded a t = .ok both) ↔ Loads t a.baseline ∧ Loads t a.current := by
  simp only [loaded, bind_eq_ok, Loads]
  constructor
  · rintro ⟨both, before, first, after, second, -⟩
    exact ⟨⟨before, first⟩, after, second⟩
  · rintro ⟨⟨before, first⟩, after, second⟩
    exact ⟨(before, after), before, first, after, second, rfl⟩

theorem refused_iff : s.Refused (!a.hasFlag "--no-emoji") ((compare a).finish s) ↔
    Settled (loaded a s.files) ∧ ¬∃ both, loaded a s.files = .ok both := by
  rw [finish_compare]
  rcases loaded a s.files with failure | ⟨before, after⟩
  · simp [s.refused_halted]
  · refine iff_of_false ?_ (by simp)
    rintro ⟨reason, same⟩
    have status := congrArg Finish.ending same
    dsimp only [Session.halted] at status
    split at status <;> cases status

theorem broken_iff : s.Broken ((compare a).finish s) ↔ ¬Settled (loaded a s.files) := by
  rw [finish_compare]
  rcases loaded a s.files with failure | ⟨before, after⟩
  · simp [s.broken_halted]
  · refine iff_of_false ?_ (by simp)
    rintro ⟨fault, same⟩
    cases congrArg Finish.ending same

/-- Whatever is in the files, what is loaded from them is valid, and a failure is reported unless
the path has no form for the system or the file is no text. A comparison is refused exactly if the
first file that does not load is text. -/
theorem compare_refused_iff {given : List Text} {a : Arguments}
    (points : ∀ argument ∈ given, Points argument)
    (parsed : Arguments.parse compareForms compareArguments given = .ok a)
    (acts : a.asksForHelp = false) (around : Surroundings) (s : Session) :
    let t := s.files
    let finish := dispatch around "diff" given s
    (∀ p, (Settled (load t p) ↔ t.Textual p) ∧ ∀ r, load t p = .ok r → r.Valid) ∧
    (s.Refused (!a.hasFlag "--no-emoji") finish ↔ t.Decodes a.baseline ∧
      (Loads t a.baseline → t.Decodes a.current ∧ ¬Loads t a.current)) ∧
    (s.Broken finish ↔ ¬t.Decodes a.baseline ∨ Loads t a.baseline ∧ ¬t.Decodes a.current) := by
  intro t finish
  have fit := Arguments.parse_fits points parsed
  have command : finish = (compare a).finish s := by
    show dispatch around "diff" given s = _
    rw [dispatch, if_neg (by decide), if_pos rfl, parsed]
    exact if_neg (by simp [acts])
  rw [command, refused_iff, broken_iff, settled_loaded, loaded_iff,
    t.textual_iff_decodes a.baseline (fit.headD_drop 0),
    t.textual_iff_decodes a.current (fit.headD_drop 1)]
  refine ⟨fun p => ⟨settled_load, fun r => load_valid⟩, ?_, ?_⟩
  · tauto
  · tauto

/-- A file that is not there is reported. -/
theorem compare_refused_missing :
    let given : List Text := ["a.json", "b.json"]
    let a : Arguments := { paths := [Path.ofText "a.json", Path.ofText "b.json"] }
    let s : Session := { files := { workingDirectory := Path.ofText "/" } }
    (∀ argument ∈ given, Points argument) ∧
      Arguments.parse compareForms compareArguments given = .ok a ∧
      ∀ around : Surroundings, s.Refused true (dispatch around "diff" given s) := by
  intro given a s
  have points : ∀ argument ∈ given, Points argument := by decide
  have parsed : Arguments.parse compareForms compareArguments given = .ok a := rfl
  refine ⟨points, parsed, fun around => ?_⟩
  obtain ⟨-, refused, -⟩ := compare_refused_iff points parsed rfl around s
  exact refused.mpr ⟨nofun, fun ⟨r, loaded⟩ => nomatch loaded⟩

/-- A file that is no text is not reported. -/
theorem undecodable_result_unreported :
    let t : FileTree :=
      { nodes := [(["a.json"], ⟨.file [0xFF], 0⟩)], workingDirectory := Path.ofText "/" }
    let given : List Text := ["a.json", "b.json"]
    let s : Session := { files := t }
    ¬Settled (load t (Path.ofText "a.json")) ∧
      ∀ around : Surroundings, s.Broken (dispatch around "diff" given s) ∧
        ¬s.Refused true (dispatch around "diff" given s) := by
  intro t given s
  obtain ⟨fault, failed⟩ : ∃ fault, load t (Path.ofText "a.json") = .error (.aborted fault) :=
    ⟨_, rfl⟩
  refine ⟨by simp [failed], fun around => ?_⟩
  have halted : dispatch around "diff" given s = s.halted true (.aborted fault) := by
    show (compare { paths := [Path.ofText "a.json", Path.ofText "b.json"] }).finish s = _
    rw [finish_compare]
    have read : loaded { paths := [Path.ofText "a.json", Path.ofText "b.json"] } t =
        .error (.aborted fault) := by
      show (load t (Path.ofText "a.json") >>= _) = _
      rw [failed]
      rfl
    rw [read]
    rfl
  rw [halted, s.broken_halted, s.refused_halted]
  exact ⟨id, id⟩

end CommandLine
end LintCorpus
