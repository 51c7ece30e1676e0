import LintCorpus.Linter.Invoke
import LintCorpus.Proofs.Catalog
import LintCorpus.Proofs.CrateRoots
import LintCorpus.Proofs.Stream.Outcome

/-!
Running the linter on a package. However the linter behaves, there is a record of the run; only a
declared root with a null character or a record beyond the limits of JSON texts keeps it from being
made.
-/
namespace LintCorpus.Linter

open CrateRoots

/-- A declared root with a null character is to be marked. -/
def Interrupted (l : Linter) (t : FileTree) (package : Package) (manifest : Members) : Prop :=
  l.touchRoots = true ∧ CrateRoots.Interrupted t package.path manifest

variable {l : Linter} {t : FileTree} {package : Package} {manifest : Members}

theorem touch_interrupted (loaded : Toml.load t (package.path.child manifestName) = .ok manifest)
    (interrupted : l.Interrupted t package manifest) :
    (l.touch t package).2 = .error .nullCharacter := by
  have stopped := (touch_eq_error loaded .nullCharacter nofun).mpr ⟨rfl, interrupted.2⟩
  rw [touch, interrupted.1]
  rcases outcome : CrateRoots.touch t package.path with ⟨touched, result⟩
  rw [outcome] at stopped
  obtain rfl : result = _ := stopped
  rfl

theorem touch_told (loaded : Toml.load t (package.path.child manifestName) = .ok manifest)
    (undisturbed : ¬l.Interrupted t package manifest) :
    ∃ told, (l.touch t package).2 = .ok told ∧
      ∀ fault, l.touchRoots = true → (CrateRoots.touch t package.path).2 = .error fault →
        touchWarning package.name fault ∈ told := by
  cases wanted : l.touchRoots with
  | false =>
    refine ⟨[], ?_, nofun⟩
    rw [touch, wanted]
    rfl
  | true =>
    rcases outcome : CrateRoots.touch t package.path with ⟨touched, fault | marked⟩
    swap
    · refine ⟨[], ?_, nofun⟩
      rw [touch, wanted, outcome]
      rfl
    have refusal : ∀ strange, (∀ error, strange ≠ .refused error none) →
        fault ≠ .file strange := by
      rintro strange alien rfl
      have failed : (CrateRoots.touch t package.path).2 = .error (.file strange) := by rw [outcome]
      exact undisturbed ⟨wanted, ((touch_eq_error loaded strange alien).mp failed).2⟩
    have told : (l.touch t package).2 = .ok [touchWarning package.name fault] := by
      rw [touch, wanted, outcome]
      cases fault with
      | document fault => rfl
      | file fault =>
        cases fault with
        | refused error path => rfl
        | nullCharacter => exact absurd rfl (refusal _ nofun)
        | undecodable fault => exact absurd rfl (refusal _ nofun)
        | unencodable fault => exact absurd rfl (refusal _ nofun)
        | unreadable excess => exact absurd rfl (refusal _ nofun)
    refine ⟨_, told, fun other _ same => ?_⟩
    cases same
    exact List.mem_singleton.mpr rfl

/-- The linter wrote nothing beyond the limits, if it could be started. -/
def Readable (l : Linter) (answer : Except StartFault Capture) : Prop :=
  ∀ captured, answer = .ok captured → StreamReader.Within l.limits captured.stdout

/-- What a record says of a run, given how the launch was answered, and what has been told. -/
structure Recorded (l : Linter) (t : FileTree) (package : Package) (mode : InvocationMode)
    (answer : Except StartFault Capture) (messages : List Message) (i : Invocation) : Prop where
  subject : i.package = package.name ∧ i.mode = mode
  ended : ∀ captured, answer = .ok captured →
    i.stdout = captured.stdout ∧ i.stderr = captured.stderr ∧ i.returncode = captured.returncode ∧
      ∃ parsed, Parsed.ofStream l.limits captured.stdout package.name = .ok parsed ∧
        i.status = classify captured.returncode captured.timedOut captured.stderr parsed
  unstarted : ∀ fault, answer = .error fault → i.status = .crashed ∧ i.returncode = none ∧
    i.stderr = Utf8.encode ("failed to start linter: " ++ fault.message)
  unmarked : ∀ fault, l.touchRoots = true → (CrateRoots.touch t package.path).2 = .error fault →
    touchWarning package.name fault ∈ messages
  worded : hasWording l.timeout i = true

theorem classify_timeout (returncode : Option Int) (timedOut : Bool) (stderr : Bytes)
    (parsed : Parsed) (late : classify returncode timedOut stderr parsed = .timeout) :
    timedOut = true := by
  cases timedOut with
  | true => rfl
  | false =>
    cases returncode with
    | none => cases late
    | some code =>
      simp only [classify, Bool.false_eq_true, if_false, classifyExit] at late
      split_ifs at late

theorem invokeCommand_of_touch_error (launch : Launcher) (command : List Text)
    (mode : InvocationMode) {fault : FileFault} (failed : (l.touch t package).2 = .error fault) :
    (l.invokeCommand launch t package command mode).result = .error fault := by
  rcases outcome : l.touch t package with ⟨touched, result⟩
  rw [outcome] at failed
  obtain rfl : result = _ := failed
  rw [invokeCommand, outcome]

variable {command : List Text} {mode : InvocationMode} {messages : List Message}
  {answer : Except StartFault Capture}

section Marked

variable {launch : Launcher} (marked : (l.touch t package).2 = .ok messages)

include marked

theorem invokeCommand_of_answered {i : Invocation}
    (made : l.answered package.name command mode (launch (l.request package command)) = .ok i) :
    (l.invokeCommand launch t package command mode).result = .ok ⟨settled package i, i⟩ ∧
      ∃ warnings, (l.invokeCommand launch t package command mode).messages =
        messages ++ warnings := by
  rcases outcome : l.touch t package with ⟨touched, result⟩
  rw [outcome] at marked
  obtain rfl : result = _ := marked
  rw [invokeCommand, outcome]
  dsimp only
  rw [made]
  exact ⟨rfl, _, rfl⟩

theorem invokeCommand_of_excess {excess : Json.Excess}
    (stopped : l.answered package.name command mode (launch (l.request package command)) =
      .error excess) :
    (l.invokeCommand launch t package command mode).result = .error (.unreadable excess) := by
  rcases outcome : l.touch t package with ⟨touched, result⟩
  rw [outcome] at marked
  obtain rfl : result = _ := marked
  rw [invokeCommand, outcome]
  dsimp only
  rw [stopped]

end Marked

theorem answered_of_readable (l : Linter) (name : Text) (command : List Text)
    (mode : InvocationMode) (readable : l.Readable answer) :
    ∃ i, l.answered name command mode answer = .ok i := by
  cases answer with
  | error fault => exact ⟨_, rfl⟩
  | ok captured =>
    have parsed := StreamReader.ofStream_of_within l.limits name (readable captured rfl)
    exact ⟨_, by rw [answered, ofCapture, parsed]; rfl⟩

theorem answered_of_not_readable (l : Linter) (name : Text) (command : List Text)
    (mode : InvocationMode) (unreadable : ¬l.Readable answer) :
    ∃ excess, l.answered name command mode answer = .error excess := by
  cases answer with
  | error fault => exact absurd nofun unreadable
  | ok captured =>
    have beyond : ¬StreamReader.Within l.limits captured.stdout := by
      intro within
      refine unreadable fun other same => ?_
      cases same
      exact within
    obtain ⟨excess, stopped⟩ := StreamReader.ofStream_of_not_within l.limits name beyond
    exact ⟨excess, by rw [answered, ofCapture, stopped]; rfl⟩

theorem recorded_of_answered {i : Invocation}
    (made : l.answered package.name command mode answer = .ok i)
    (limited : ∀ captured, answer = .ok captured → captured.timedOut = true →
      l.timeout.isSome = true)
    (unmarked : ∀ fault, l.touchRoots = true →
      (CrateRoots.touch t package.path).2 = .error fault →
        touchWarning package.name fault ∈ messages) :
    Recorded l t package mode answer messages i := by
  cases answer with
  | error fault =>
    obtain rfl := Except.ok.inj made
    exact {
      subject := ⟨rfl, rfl⟩
      ended := nofun
      unstarted := by
        rintro other same
        cases same
        exact ⟨rfl, rfl, rfl⟩
      unmarked
      worded := Bool.or_eq_true_iff.mpr (.inr rfl) }
  | ok captured =>
    obtain ⟨parsed, read, rfl⟩ := map_eq_ok.mp made
    exact {
      subject := ⟨rfl, rfl⟩
      ended := by
        rintro other same
        cases same
        exact ⟨rfl, rfl, rfl, parsed, read, rfl⟩
      unstarted := nofun
      unmarked
      worded := by
        rw [hasWording, Bool.or_eq_true, bne_iff_ne]
        by_cases late : captured.timedOut = true
        · exact .inl (limited captured rfl late)
        · exact .inr fun class_ => late (classify_timeout _ _ _ _ class_) }

/-- Whatever a package holds and however the linter behaves, there is a record of the run, unless
roots are to be marked and there is a null character in the first that cannot be, or the linter
writes a record beyond the limits of JSON texts. -/
theorem invoke_recorded (l : Linter) (launch : Launcher) (t : FileTree) (package : Package)
    (command : List Text) (mode : InvocationMode)
    (yielded : Catalog.disqualify t package.path = .ok none)
    (limited : ∀ captured, launch (l.request package command) = .ok captured →
      captured.timedOut = true → l.timeout.isSome = true) :
    let answer := launch (l.request package command)
    let outcome := l.invokeCommand launch t package command mode
    ∃ manifest, Toml.load t (package.path.child manifestName) = .ok manifest ∧
      (l.Interrupted t package manifest → outcome.result = .error .nullCharacter) ∧
      (¬l.Interrupted t package manifest → l.Readable answer → ∃ made,
        outcome.result = .ok made ∧
          Recorded l t package mode answer outcome.messages made.invocation) ∧
      (¬l.Interrupted t package manifest → ¬l.Readable answer → ∃ excess,
        outcome.result = .error (.unreadable excess)) := by
  intro answer outcome
  obtain ⟨manifest, loaded⟩ := Catalog.load_of_disqualify t package.path yielded
  refine ⟨manifest, loaded, fun interrupted => ?_, fun undisturbed readable => ?_,
    fun undisturbed unreadable => ?_⟩
  · exact invokeCommand_of_touch_error launch command mode (touch_interrupted loaded interrupted)
  · obtain ⟨told, marked, warned⟩ := touch_told loaded undisturbed
    obtain ⟨i, made⟩ := answered_of_readable l package.name command mode readable
    obtain ⟨returned, warnings, messages⟩ := invokeCommand_of_answered marked made
    refine ⟨_, returned, recorded_of_answered made limited fun fault wanted failed => ?_⟩
    rw [messages]
    exact List.mem_append_left _ (warned fault wanted failed)
  · obtain ⟨told, marked, -⟩ := touch_told loaded undisturbed
    obtain ⟨excess, stopped⟩ :=
      answered_of_not_readable l package.name command mode unreadable
    exact ⟨excess, invokeCommand_of_excess marked stopped⟩

/-- A root that is missing, and no build tool. -/
theorem invoke_recorded_unmarked :
    let t : FileTree :=
      { nodes := [(["demo"], ⟨.directory, 0⟩),
          (["demo", "Cargo.toml"], ⟨.file (Utf8.encode "[lib]\npath = 'a.rs'"), 0⟩)]
        workingDirectory := Path.ofText "/" }
    let l : Linter := { program := ["cargo"], root := Path.ofText "/" }
    let package : Package := { name := "demo", path := Path.ofText "/demo" }
    let launch : Launcher := fun _ => .error (.notOnPath "cargo")
    let outcome := l.invokeCommand launch t package ["cargo"] .lint
    ∃ made, outcome.result = .ok made ∧ made.invocation.status = .crashed ∧
      touchWarning "demo" (.file (.refused .notFound none)) ∈ outcome.messages := by
  intro t l package launch outcome
  obtain ⟨manifest, loaded, -, recorded, -⟩ :=
    invoke_recorded l launch t package ["cargo"] .lint (by decide +kernel) nofun
  have roots : (Toml.load t (package.path.child manifestName)).toOption.map declared =
      some (["a.rs"] : List Text) := by
    decide +kernel
  rw [loaded] at roots
  have plain : ∀ root ∈ (["a.rs"] : List Text), 0 ∉ root := by decide
  have undisturbed : ¬l.Interrupted t package manifest := by
    rintro ⟨-, front, root, back, listed, -, null⟩
    rw [Option.some.inj roots] at listed
    exact plain root (by rw [listed]; simp) null
  obtain ⟨made, returned, record⟩ := recorded undisturbed nofun
  refine ⟨made, returned, (record.unstarted _ rfl).1, ?_⟩
  exact record.unmarked _ rfl (by decide +kernel)

/-- A root that is named by a null character. -/
theorem invoke_interrupted :
    let t : FileTree :=
      { nodes := [(["demo"], ⟨.directory, 0⟩),
          (["demo", "Cargo.toml"], ⟨.file (Utf8.encode "[lib]\npath = \"\\u0000\""), 0⟩)]
        workingDirectory := Path.ofText "/" }
    let l : Linter := { program := ["cargo"], root := Path.ofText "/" }
    let package : Package := { name := "demo", path := Path.ofText "/demo" }
    Catalog.disqualify t package.path = .ok none ∧
      ∀ launch command mode, (l.invokeCommand launch t package command mode).result =
        .error .nullCharacter := by
  intro t l package
  refine ⟨by decide +kernel, fun launch command mode => ?_⟩
  exact invokeCommand_of_touch_error launch command mode (by decide +kernel)

end LintCorpus.Linter
