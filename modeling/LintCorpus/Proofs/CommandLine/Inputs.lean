import LintCorpus.Proofs.CommandLine.Arguments
import LintCorpus.Proofs.CommandLine.Session
import LintCorpus.Proofs.Files.Read

/-!
What a run reads before it lints: its configuration, the packages that are expected to be clean, and
the toolchain of the workspace. Only the second reader expects bytes that are no text.
-/
namespace LintCorpus

open FileTree

namespace CleanSet

theorem settled_load (t : FileTree) (p : Path) : Settled (load t p) ↔ checkPath p = .ok () := by
  have reported : FailsOnly (fun fault => (readFailure p fault).IsReported) (t.readText p) ↔
      checkPath p = .ok () := by
    rw [readText, failsOnly_bind, failsOnly_read _ _ fun _ _ => trivial,
      failsOnly_checkPath p id fun _ => id, and_iff_left_iff_imp]
    intro _ bytes _
    rcases Utf8.decodeStrict bytes with fault | content
    · exact (failsOnly_error _).mpr trivial
    · exact failsOnly_ok _
  rw [load, settled_bind, settled_mapError, reported, and_iff_left_iff_imp]
  exact fun _ _ _ => settled_reported _

end CleanSet

namespace Config

theorem settled_load (t : FileTree) (file : Option Path) (overrides : Overrides) :
    Settled (load t file overrides) ↔ ∀ p, file = some p → t.Textual p := by
  rw [load, settled_bind]
  simp only [settled_reported, implies_true, and_true]
  rcases file with _ | p
  · exact iff_of_true (settled_ok _) (by simp)
  · rw [document, Toml.settled_load]
    simp

end Config

namespace Workspace

variable {t : FileTree} {launch : Launcher} {path : Path}

theorem settled_channelIn (file : Path) : Settled (channelIn t file) ↔ t.Textual file := by
  rw [channelIn, settled_bind, Toml.settled_load, and_iff_left_iff_imp]
  intro _ d _
  split
  · exact settled_ok _
  · exact (settled_error _).mpr trivial

theorem settled_firstChannel (files : List Path) :
    Settled (firstChannel t path files) ↔ t.Consultable files := by
  induction files with
  | nil => exact iff_of_true ((settled_error _).mpr trivial) trivial
  | cons file rest ih =>
    rw [firstChannel, Consultable, settled_asked, isFile, leadsTo_ok_iff, ih]
    refine and_congr_right fun _ => and_congr_left fun _ => imp_congr_right fun found => ?_
    rw [settled_channelIn, t.textual_iff_decodes file (t.fits_of_leadsTo file found)]

/-- The workspace can be told to be there or not, and its toolchain file is text. -/
def Readable (t : FileTree) (path : Path) : Prop :=
  let path := path.absolute t.workingDirectory
  t.WithinLimits path ∧ (t.holds path = .ok true → t.Consultable (toolchainFiles.map path.child))

theorem prepare_unbuilt : prepare t launch path false = locate t path := by
  rw [prepare]
  rcases locate t path with failure | w
  · rfl
  · rfl

theorem settled_prepare : Settled (prepare t launch path false) ↔ Readable t path := by
  rw [prepare_unbuilt, locate, Readable, settled_asked, holds, leadsTo_ok_iff]
  simp only [settled_error, Failure.isReported_reported, implies_true, and_true]
  refine and_congr_right fun _ => imp_congr_right fun _ => ?_
  rw [settled_bind, readChannel, settled_firstChannel, and_iff_left_iff_imp]
  exact fun _ _ _ => settled_ok _

end Workspace

namespace RunOptions

variable {t : FileTree} {o : RunOptions}

/-- The configuration file, if there is one, is text; if none is named it can be told whether the
customary one is there. -/
def Readable (t : FileTree) (o : RunOptions) : Prop :=
  match o.configPath with
  | some p => t.Decodes p
  | none => t.Consultable [t.workingDirectory.child defaultConfigName]

theorem configFile_textual (named : ∀ p, o.configPath = some p → checkPath p = .ok ()) :
    ((∃ file, o.configFile t = .ok file) ∧
      ∀ file, o.configFile t = .ok file → ∀ p, file = some p → t.Textual p) ↔ o.Readable t := by
  rcases given : o.configPath with _ | p
  · rw [Readable, configFile, given]
    dsimp only
    rw [Consultable, ← leadsTo_ok_iff t _ fun c => c != .directory, ← isFile]
    rcases asked : t.isFile (t.workingDirectory.child defaultConfigName) with fault | found
    · simp [bind, Except.bind]
    · cases found with
      | true =>
        have fits := t.fits_of_leadsTo _ asked
        simp [bind, Except.bind, pure, Except.pure, t.textual_iff_decodes _ fits]
      | false => simp [bind, Except.bind, pure, Except.pure, Consultable]
  · simp [Readable, configFile, given, t.textual_iff_decodes p (named p given)]

theorem settled_config (named : ∀ p, o.configPath = some p → checkPath p = .ok ())
    (clean : ∀ p, o.expectedClean = some p → checkPath p = .ok ()) :
    Settled (o.config t) ↔ o.Readable t := by
  rw [← configFile_textual named, config, settled_bind, settled_aborted]
  refine and_congr_right fun _ => forall_congr' fun file => ?_
  rw [mapError_eq_ok]
  refine imp_congr_right fun _ => ?_
  rw [settled_bind, settled_mapReported, Config.settled_load, and_iff_left_iff_imp]
  intro _ config _
  split
  · exact settled_ok _
  next p given =>
    rw [settled_bind, settled_mapReported, CleanSet.settled_load]
    exact ⟨clean p given, fun _ _ => settled_ok _⟩

end RunOptions

namespace CommandLine

variable (s : Surroundings) (o : RunOptions) (t : FileTree)

/-- What a run reads before it starts any program. -/
def inputs : Except (Failure Text) (Config × Workspace) := do
  let config ← (o.config t).mapError (Failure.mapReported OptionsFault.message)
  let w ← (Workspace.prepare t s.launch o.workspace false).mapError
    (Failure.mapReported WorkspaceFault.message)
  return (config, w)

def programs (config : RunConfig) (w : Workspace) :
    Except (Failure WorkspaceFault) (Option Text) := do
  if !config.skipBuild then w.build s.launch
  match config.targetLint with
  | none => return none
  | some name => return some (← w.resolveLint s.launch name)

def linting (config : Config) (w : Workspace) (run : RunConfig) : Step Signal := do
  let run := Corpus.run (← Step.files) s.launch (w.command .cargoClippy) run o.cratesRoot
  Step.setFiles run.files
  Step.tell config.output.emoji run.messages
  let result ← Step.require o.emoji CorpusFault.message run.result
  emit o config.output result
  let decision := Gate.evaluate result config.policy
  Step.tell o.emoji (verdictMessages decision result.summary)
  return decision.signal

def lintCommand : Step Nat := do return (← lint s o).exitCode

variable {s o t}

theorem prepare_error {failure : Failure WorkspaceFault} (config : RunConfig)
    (missing : Workspace.prepare t s.launch o.workspace false = .error failure) :
    prepare s t o config = .error failure := by
  rw [Workspace.prepare_unbuilt] at missing
  rw [prepare, Workspace.prepare, missing]
  rfl

theorem prepare_ok {w : Workspace} (config : RunConfig)
    (found : Workspace.prepare t s.launch o.workspace false = .ok w) :
    prepare s t o config = (programs s config w).map fun rule => (w, rule) := by
  rw [Workspace.prepare_unbuilt] at found
  have lint : ∀ target : Option Text, (match target with
      | none => return (w, none)
      | some name => return (w, some (← w.resolveLint s.launch name))) =
        Except.map (fun rule => (w, rule)) (match target with
          | none => return none
          | some name => return some (← w.resolveLint s.launch name)) := by
    rintro (_ | name)
    · rfl
    · dsimp only
      rcases w.resolveLint s.launch name with failure | rule
      · rfl
      · rfl
  rw [prepare, Workspace.prepare, found, programs]
  cases config.skipBuild with
  | true => exact lint config.targetLint
  | false =>
    change ((w.build s.launch >>= fun _ => Except.ok w) >>= fun w => _) =
      Except.map _ (w.build s.launch >>= fun _ => _)
    rcases w.build s.launch with failure | _
    · rfl
    · exact lint config.targetLint

variable (s o)

theorem finish_lint (session : Session) : (lintCommand s o).finish session =
    match inputs s o session.files with
    | .error failure => session.halted o.emoji failure
    | .ok (config, w) =>
      match programs s config.run w with
      | .error failure => session.halted o.emoji (failure.mapReported WorkspaceFault.message)
      | .ok rule =>
        let run := { config.run with targetLint := rule }
        (do return (← linting s o config w run).exitCode : Step Nat).finish
          (session.told o.emoji [lintingMessage o run s.processors]) := by
  rw [lintCommand, lint]
  simp only [bind_assoc]
  rw [Step.finish_files, Step.finish_require, inputs]
  rcases o.config session.files with failure | config
  · rfl
  dsimp only
  rw [Step.finish_files, Step.finish_require]
  rcases found : Workspace.prepare session.files s.launch o.workspace false with failure | w
  · rw [prepare_error config.run found]
    rfl
  rw [prepare_ok config.run found]
  show _ = match programs s config.run w with
    | .error failure => _
    | .ok rule => _
  rcases programs s config.run w with failure | rule
  · rfl
  dsimp only [Except.map]
  rw [Step.finish_tell, linting]
  simp only [bind_assoc]

theorem settled_inputs : Settled (inputs s o t) ↔ Settled (o.config t) ∧
    ((∃ config, o.config t = .ok config) →
      Settled (Workspace.prepare t s.launch o.workspace false)) := by
  rw [inputs, settled_bind, settled_mapReported, forall_exists_index]
  refine and_congr_right fun _ => forall_congr' fun config => ?_
  rw [mapError_eq_ok, settled_bind, settled_mapReported]
  refine imp_congr_right fun _ => and_iff_left ?_
  exact fun _ _ => settled_ok _

/-- Whatever is in the files, a run that is understood reports those it cannot use, unless one of
them is no text or it cannot even be told whether it is there. If it can use them the next thing
that happens is what the build tool does, and then linting begins. -/
theorem unusable_inputs_refused_iff {given : List Text} {a : Arguments}
    (points : ∀ argument ∈ given, Points argument)
    (parsed : Arguments.parse lintForms lintArguments given = .ok a)
    (acts : a.asksForHelp = false) (session : Session) :
    let o := lintOptions a
    let t := session.files
    let finish := dispatch s "run" given session
    let readable := o.Readable t ∧
      ((∃ config, o.config t = .ok config) → Workspace.Readable t o.workspace)
    (Settled (o.config t) ↔ o.Readable t) ∧
    (Settled (Workspace.prepare t s.launch o.workspace false) ↔
      Workspace.Readable t o.workspace) ∧
    ((¬∃ found, inputs s o t = .ok found) →
      (session.Refused o.emoji finish ↔ readable) ∧ (session.Broken finish ↔ ¬readable)) ∧
    ∀ config w, inputs s o t = .ok (config, w) → finish =
      match programs s config.run w with
      | .error failure => session.halted o.emoji (failure.mapReported WorkspaceFault.message)
      | .ok rule =>
        let run := { config.run with targetLint := rule }
        (do return (← linting s o config w run).exitCode : Step Nat).finish
          (session.told o.emoji [lintingMessage o run s.processors]) := by
  intro o t finish readable
  have fit := Arguments.parse_fits points parsed
  have config : Settled (o.config t) ↔ o.Readable t :=
    RunOptions.settled_config (fun p => fit.path?) fun p => fit.path?
  have workspace : Settled (Workspace.prepare t s.launch o.workspace false) ↔
      Workspace.Readable t o.workspace := Workspace.settled_prepare
  have both : Settled (inputs s o t) ↔ readable := by rw [settled_inputs, config, workspace]
  have command : finish = (lintCommand s o).finish session := by
    show dispatch s "run" given session = _
    rw [dispatch, if_pos rfl, parsed]
    exact if_neg (by simp [acts])
  refine ⟨config, workspace, fun none => ?_, fun config w found => ?_⟩
  · rw [← both]
    refine Session.ended_iff none fun failure failed => ?_
    rw [command, finish_lint, failed]
  · rw [command, finish_lint, found]

/-- A toolchain file that is no document is reported. -/
theorem unusable_inputs_refused_toolchain :
    let given : List Text := ["ws", "crates"]
    let a : Arguments := { paths := [Path.ofText "ws", Path.ofText "crates"] }
    let t : FileTree :=
      { nodes := [(["ws"], ⟨.directory, 0⟩), (["ws", "rust-toolchain"], ⟨.file [0x78], 0⟩)],
        workingDirectory := Path.ofText "/" }
    (∀ argument ∈ given, Points argument) ∧
      Arguments.parse lintForms lintArguments given = .ok a ∧
      ∀ s : Surroundings, (¬∃ found, inputs s (lintOptions a) t = .ok found) ∧
        ({ files := t } : Session).Refused true (dispatch s "run" given { files := t }) := by
  intro given a t
  have points : ∀ argument ∈ given, Points argument := by decide
  have parsed : Arguments.parse lintForms lintArguments given = .ok a := rfl
  refine ⟨points, parsed, fun s => ?_⟩
  obtain ⟨reason, failed⟩ : ∃ reason, inputs s (lintOptions a) t = .error (.reported reason) :=
    ⟨_, rfl⟩
  have none : ¬∃ found, inputs s (lintOptions a) t = .ok found := by simp [failed]
  have settled : Settled (inputs s (lintOptions a) t) := by simp [failed]
  obtain ⟨config, workspace, refused, -⟩ :=
    unusable_inputs_refused_iff s points parsed rfl { files := t }
  refine ⟨none, (refused none).1.mpr ?_⟩
  rwa [settled_inputs, config, workspace] at settled

/-- Neither a configuration file nor a toolchain file that is no text is reported. -/
theorem undecodable_inputs_unreported :
    let given : List Text := ["ws", "crates", "--config", "bad.toml"]
    let a : Arguments :=
      { options := [({ long := "--config", kind := .path }, .path (Path.ofText "bad.toml"))]
        paths := [Path.ofText "ws", Path.ofText "crates"] }
    let t : FileTree :=
      { nodes := [(["bad.toml"], ⟨.file [0xFF], 0⟩), (["ws"], ⟨.directory, 0⟩),
          (["ws", "rust-toolchain"], ⟨.file [0xFF], 0⟩)],
        workingDirectory := Path.ofText "/" }
    Arguments.parse lintForms lintArguments given = .ok a ∧
      ¬Settled ((lintOptions a).config t) ∧
      ∀ s : Surroundings, ¬Settled (Workspace.prepare t s.launch (Path.ofText "ws") false) ∧
        ({ files := t } : Session).Broken (dispatch s "run" given { files := t }) := by
  intro given a t
  obtain ⟨fault, failed⟩ : ∃ fault, (lintOptions a).config t = .error (.aborted fault) := ⟨_, rfl⟩
  refine ⟨rfl, by simp [failed], fun s => ⟨?_, fault, ?_⟩⟩
  · obtain ⟨other, broken⟩ : ∃ other,
        Workspace.prepare t s.launch (Path.ofText "ws") false = .error (.aborted other) := ⟨_, rfl⟩
    simp [broken]
  · have read : inputs s (lintOptions a) t = .error (.aborted fault) := by
      rw [inputs, failed]
      rfl
    show (lintCommand s (lintOptions a)).finish { files := t } = _
    rw [finish_lint, read]
    rfl

end CommandLine

end LintCorpus
