import LintCorpus.CommandLine.RunOptions
import LintCorpus.Proofs.Config.CleanSet
import LintCorpus.Proofs.Dict
import LintCorpus.Proofs.Files.Path
import LintCorpus.Proofs.Schema
import LintCorpus.Proofs.Stored.Assign

/-!
Options on top of a configuration file. What is given on the command line takes the place of what
the file says, a flag is joined with it, and everything else is as the file has it.
-/
namespace LintCorpus

open Schema

section Sections

variable {m : Members}

structure RunConfig.ReadFrom (m : Members) (c : RunConfig) : Prop where
  jobs : defaulted m "jobs" none jobsCheck = .valid c.jobs
  timeout : defaulted m "timeout_s" (Binary64.ofInt 600) timeoutCheck = .valid c.timeout
  targetLint : defaulted m "target_lint" none (optional text) = .valid c.targetLint
  checkAllows : defaulted m "check_allows" false bool = .valid c.checkAllows
  skipBuild : defaulted m "skip_build" false bool = .valid c.skipBuild
  touchCrateRoots : defaulted m "touch_crate_roots" true bool = .valid c.touchCrateRoots
  extraEnv : defaulted m "extra_env" .empty (map text) = .valid c.extraEnv

structure PolicyConfig.ReadFrom (m : Members) (c : PolicyConfig) : Prop where
  compileErrorsFail : defaulted m "compile_errors_fail" false bool = .valid c.compileErrorsFail
  expectedClean : defaulted m "expected_clean" [] expectedCleanCheck = .valid c.expectedClean

structure OutputConfig.ReadFrom (m : Members) (c : OutputConfig) : Prop where
  emoji : defaulted m "emoji" true bool = .valid c.emoji
  color : defaulted m "color" true bool = .valid c.color
  progress : defaulted m "progress" true bool = .valid c.progress
  reportOut : defaulted m "report_out" none (optional path) = .valid c.reportOut
  jsonOut : defaulted m "json_out" none (optional path) = .valid c.jsonOut

theorem RunConfig.readFrom_of_check {c : RunConfig} (checked : check (.object m) = .valid c) :
    c.ReadFrom m := by
  have checked := closedRecord_eq_valid checked
  simp only [Checked.seq_eq_valid, Checked.map_eq_valid] at checked
  obtain ⟨_, _, ⟨_, _, ⟨_, _, ⟨_, _, ⟨_, _, ⟨_, _, ⟨_, jobs, rfl⟩, timeout, rfl⟩, lint, rfl⟩,
    allows, rfl⟩, skip, rfl⟩, touch, rfl⟩, env, rfl⟩ := checked
  exact ⟨jobs, timeout, lint, allows, skip, touch, env⟩

theorem PolicyConfig.readFrom_of_check {c : PolicyConfig}
    (checked : check (.object m) = .valid c) : c.ReadFrom m := by
  have checked := closedRecord_eq_valid checked
  simp only [Checked.seq_eq_valid, Checked.map_eq_valid] at checked
  obtain ⟨_, _, ⟨_, fail, rfl⟩, clean, rfl⟩ := checked
  exact ⟨fail, clean⟩

theorem PolicyConfig.ReadFrom.cleanNames {c : PolicyConfig} (read : c.ReadFrom m) :
    CleanNames c.expectedClean := by
  rcases defaulted_eq_valid.mp read.expectedClean with ⟨v, -, checked⟩ | ⟨-, absent⟩
  · exact cleanNames_of_check checked
  · rw [← absent]
    exact ⟨by simp [sortedSet, Text.sort], List.forall_mem_nil _⟩

theorem OutputConfig.readFrom_of_check {c : OutputConfig}
    (checked : check (.object m) = .valid c) : c.ReadFrom m := by
  have checked := closedRecord_eq_valid checked
  simp only [Checked.seq_eq_valid, Checked.map_eq_valid] at checked
  obtain ⟨_, _, ⟨_, _, ⟨_, _, ⟨_, _, ⟨_, emoji, rfl⟩, color, rfl⟩, progress, rfl⟩, report, rfl⟩,
    json, rfl⟩ := checked
  exact ⟨emoji, color, progress, report, json⟩

end Sections

namespace Config

theorem lookup_overlay (table values : Members) (name : Text) :
    (overlay table values).lookup name =
      (values.reverse.lookup name).or (table.lookup name) := by
  induction values generalizing table with
  | nil => rfl
  | cons entry rest ih =>
    rw [overlay, List.foldl_cons, ← overlay, ih, Dict.lookup_put, List.reverse_cons,
      List.lookup_append, Option.or_assoc, Dict.lookup_cons]
    by_cases same : name = entry.1 <;> simp [same]

section Overlay

variable {α γ : Type} {table values : Members} {name : Text} {default a b : α} {check : Check α}

theorem defaulted_overlay (default : α) (check : Check α) :
    defaulted (overlay table values) name default check = match values.reverse.lookup name with
      | some v => (check v).inside (.member name)
      | none => defaulted table name default check := by
  rw [defaulted, lookup_overlay]
  cases values.reverse.lookup name <;> rfl

theorem eq_of_unset (unset : values.reverse.lookup name = none)
    (before : defaulted table name default check = .valid a)
    (after : defaulted (overlay table values) name default check = .valid b) : b = a := by
  rw [defaulted_overlay, unset] at after
  exact Checked.valid.inj (after.symm.trans before)

theorem eq_of_given {given : Option γ} {write : γ → Value} {read : γ → α}
    (set : values.reverse.lookup name = given.map write)
    (reads : ∀ g b, check (write g) = .valid b → b = read g)
    (before : defaulted table name default check = .valid a)
    (after : defaulted (overlay table values) name default check = .valid b) :
    b = (given.map read).getD a := by
  cases given with
  | none => exact eq_of_unset set before after
  | some g =>
    rw [defaulted_overlay, set] at after
    exact reads g b (Checked.inside_eq_valid.mp after)

theorem eq_of_flag {isSet meaning a b c : Bool}
    (set : values.reverse.lookup name = if isSet then some (.bool meaning) else none)
    (before : defaulted table name c bool = .valid a)
    (after : defaulted (overlay table values) name c bool = .valid b) :
    b = if isSet then meaning else a := by
  cases isSet with
  | false => exact eq_of_unset set before after
  | true =>
    rw [defaulted_overlay, set] at after
    exact (Checked.valid.inj after).symm

theorem eq_or_of_flag {isSet a b c : Bool}
    (set : values.reverse.lookup name = if isSet then some (.bool true) else none)
    (before : defaulted table name c bool = .valid a)
    (after : defaulted (overlay table values) name c bool = .valid b) : b = (a || isSet) := by
  rw [eq_of_flag set before after]
  cases isSet <;> simp

theorem eq_and_of_flag {wanted a b c : Bool}
    (set : values.reverse.lookup name = if !wanted then some (.bool false) else none)
    (before : defaulted table name c bool = .valid a)
    (after : defaulted (overlay table values) name c bool = .valid b) : b = (a && wanted) := by
  rw [eq_of_flag set before after]
  cases wanted <;> simp

end Overlay

def sectioned (run policy output : Members) : List (Text × Members) :=
  [("run", run), ("policy", policy), ("output", output)]

theorem exists_of_tables {d : Members} {given : List (Text × Members)}
    (read : tables d = .ok given) : ∃ run policy output, given = sectioned run policy output := by
  have named : ∀ {name : Text} {entry : Text × Members}, sectionTable d name = .ok entry →
      ∃ members, entry = (name, members) := by
    intro name entry read
    rw [sectionTable] at read
    split at read
    · cases read
      exact ⟨_, rfl⟩
    · cases read
      exact ⟨_, rfl⟩
    · cases read
  rw [tables] at read
  split at read
  · simp only [sections, List.mapM_cons, List.mapM_nil, bind_eq_ok] at read
    obtain ⟨run, first, _, ⟨policy, second, _, ⟨output, third, _, none, last⟩, both⟩, all⟩ := read
    cases none
    cases last
    cases both
    cases all
    obtain ⟨run, rfl⟩ := named first
    obtain ⟨policy, rfl⟩ := named second
    obtain ⟨output, rfl⟩ := named third
    exact ⟨run, policy, output, rfl⟩
  · cases read

theorem sections_of_tables {path : Option Path} {run policy output : Members} {c : Config}
    (made : ofTables path (sectioned run policy output) = .ok c) :
    c.run.ReadFrom run ∧ c.policy.ReadFrom policy ∧ c.output.ReadFrom output := by
  rw [ofTables] at made
  split at made
  · next checked =>
    cases made
    obtain ⟨_, _, both, third, rfl⟩ := Checked.seq_eq_valid.mp checked
    obtain ⟨_, _, one, second, rfl⟩ := Checked.seq_eq_valid.mp both
    obtain ⟨_, first, rfl⟩ := Checked.map_eq_valid.mp one
    exact ⟨RunConfig.readFrom_of_check (Checked.inside_eq_valid.mp first),
      PolicyConfig.readFrom_of_check (Checked.inside_eq_valid.mp second),
      OutputConfig.readFrom_of_check (Checked.inside_eq_valid.mp third)⟩
  · cases made

end Config

namespace RunOptions

variable {o : RunOptions} {m : Members}

theorem lookup_given {α : Type} (name : Text) (value : Option α) (write : α → Value) (n : Text) :
    (given name value write).reverse.lookup n = if n = name then value.map write else none := by
  cases value with
  | none => simp [given]
  | some a => simp [given, Dict.lookup_cons]

theorem lookup_switched (name : Text) (isSet meaning : Bool) (n : Text) :
    (switched name isSet meaning).reverse.lookup n =
      if n = name then if isSet then some (.bool meaning) else none else none := by
  cases isSet with
  | false => simp [switched]
  | true => simp [switched, Dict.lookup_cons]

theorem lookup_runOverrides (o : RunOptions) :
    let given (name : Text) := o.runOverrides.reverse.lookup name
    given "jobs" = o.jobs.map .int ∧ given "timeout_s" = o.timeout.map .float ∧
      given "target_lint" = o.lint.map .text ∧
      (given "check_allows" = if o.checkAllows then some (.bool true) else none) ∧
      (given "skip_build" = if o.skipBuild then some (.bool true) else none) ∧
      given "touch_crate_roots" = none ∧ given "extra_env" = none := by
  simp +decide [runOverrides, List.lookup_append, lookup_given, lookup_switched]

theorem lookup_policyOverrides (o : RunOptions) :
    let given (name : Text) := o.policyOverrides.reverse.lookup name
    (given "compile_errors_fail" = if o.failOnCompileError then some (.bool true) else none) ∧
      given "expected_clean" = none := by
  simp +decide [policyOverrides, lookup_switched]

theorem lookup_outputOverrides (o : RunOptions) :
    let given (name : Text) := o.outputOverrides.reverse.lookup name
    (given "emoji" = if !o.emoji then some (.bool false) else none) ∧
      (given "color" = if !o.color then some (.bool false) else none) ∧
      (given "progress" = if !o.progress then some (.bool false) else none) ∧
      given "report_out" = o.reportOut.map pathValue ∧
      given "json_out" = o.jsonOut.map pathValue := by
  simp +decide [outputOverrides, List.lookup_append, lookup_given, lookup_switched]

theorem jobsCheck_int (i : Int) (b : Option Int) (checked : jobsCheck (.int i) = .valid b) :
    b = some i := by
  obtain ⟨j, read, checked⟩ := Checked.andThen_eq_valid.mp checked
  cases read
  split at checked <;> cases checked
  rfl

theorem timeoutCheck_float (x y : Binary64) (checked : timeoutCheck (.float x) = .valid y) :
    y = x := by
  obtain ⟨z, read, checked⟩ := Checked.andThen_eq_valid.mp checked
  cases read
  split at checked <;> cases checked
  rfl

theorem optional_text (t : Text) (b : Option Text)
    (checked : optional text (.text t) = .valid b) : b = some t := by
  cases checked
  rfl

theorem optional_pathValue (p : Path) (b : Option Path)
    (checked : optional path (pathValue p) = .valid b) : b = some p := by
  cases checked
  exact congrArg some p.ofText_toText

theorem getD_map_some {α : Type} (given before : Option α) :
    (given.map some).getD before = given.or before := by
  cases given <;> rfl

open Config

/-- How packages are linted once the options are on top of the file. -/
def onRun (o : RunOptions) (base : RunConfig) : RunConfig :=
  { base with
    jobs := o.jobs.or base.jobs
    timeout := o.timeout.getD base.timeout
    targetLint := o.lint.or base.targetLint
    checkAllows := base.checkAllows || o.checkAllows
    skipBuild := base.skipBuild || o.skipBuild }

def onPolicy (o : RunOptions) (base : PolicyConfig) : PolicyConfig :=
  { base with compileErrorsFail := base.compileErrorsFail || o.failOnCompileError }

def onOutput (o : RunOptions) (base : OutputConfig) : OutputConfig where
  emoji := base.emoji && o.emoji
  color := base.color && o.color
  progress := base.progress && o.progress
  reportOut := o.reportOut.or base.reportOut
  jsonOut := o.jsonOut.or base.jsonOut

def onTop (o : RunOptions) (base : Config) : Config :=
  ⟨o.onRun base.run, o.onPolicy base.policy, o.onOutput base.output⟩

theorem eq_onRun {base c : RunConfig} (before : base.ReadFrom m)
    (after : c.ReadFrom (overlay m o.runOverrides)) : c = o.onRun base := by
  obtain ⟨jobs, timeout, lint, allows, skip, touch, env⟩ := lookup_runOverrides o
  have jobs := eq_of_given jobs jobsCheck_int before.jobs after.jobs
  have timeout := eq_of_given timeout timeoutCheck_float before.timeout after.timeout
  have lint := eq_of_given lint optional_text before.targetLint after.targetLint
  have allows := eq_or_of_flag allows before.checkAllows after.checkAllows
  have skip := eq_or_of_flag skip before.skipBuild after.skipBuild
  have touch := eq_of_unset touch before.touchCrateRoots after.touchCrateRoots
  have env := eq_of_unset env before.extraEnv after.extraEnv
  rw [getD_map_some] at jobs lint
  rw [Option.map_id'] at timeout
  rw [onRun, ← jobs, ← timeout, ← lint, ← allows, ← skip, ← touch, ← env]

theorem eq_onPolicy {base c : PolicyConfig} (before : base.ReadFrom m)
    (after : c.ReadFrom (overlay m o.policyOverrides)) : c = o.onPolicy base := by
  obtain ⟨fail, clean⟩ := lookup_policyOverrides o
  have fail := eq_or_of_flag fail before.compileErrorsFail after.compileErrorsFail
  have clean := eq_of_unset clean before.expectedClean after.expectedClean
  rw [onPolicy, ← fail, ← clean]

theorem eq_onOutput {base c : OutputConfig} (before : base.ReadFrom m)
    (after : c.ReadFrom (overlay m o.outputOverrides)) : c = o.onOutput base := by
  obtain ⟨emoji, color, progress, report, json⟩ := lookup_outputOverrides o
  have emoji := eq_and_of_flag emoji before.emoji after.emoji
  have color := eq_and_of_flag color before.color after.color
  have progress := eq_and_of_flag progress before.progress after.progress
  have report := eq_of_given report optional_pathValue before.reportOut after.reportOut
  have json := eq_of_given json optional_pathValue before.jsonOut after.jsonOut
  rw [getD_map_some] at report json
  rw [onOutput, ← emoji, ← color, ← progress, ← report, ← json]

theorem foldlM_override (o : RunOptions) (run policy output : Members) :
    o.overrides.foldlM override (sectioned run policy output) =
      .ok (sectioned (overlay run o.runOverrides) (overlay policy o.policyOverrides)
        (overlay output o.outputOverrides)) := by
  simp +decide [overrides, override, sectioned, bind, Except.bind, pure, Except.pure]

theorem eq_onTop {path : Option Path} {d : Members} {base c : Config}
    (before : ofDocument path d [] = .ok base) (after : ofDocument path d o.overrides = .ok c) :
    c = o.onTop base := by
  obtain ⟨given, read, before⟩ := bind_eq_ok.mp before
  obtain ⟨again, reread, after⟩ := bind_eq_ok.mp after
  obtain rfl : given = again := Except.ok.inj (read.symm.trans reread)
  obtain ⟨run, policy, output, rfl⟩ := exists_of_tables read
  rw [foldlM_override] at after
  obtain ⟨run, policy, output⟩ := sections_of_tables before
  obtain ⟨running, judging, writing⟩ := sections_of_tables after
  rw [onTop, ← eq_onRun run running, ← eq_onPolicy policy judging,
    ← eq_onOutput output writing]

end RunOptions

theorem Config.cleanNames_of_ofDocument {path : Option Path} {d : Members} {c : Config}
    (made : ofDocument path d [] = .ok c) : CleanNames c.policy.expectedClean := by
  obtain ⟨given, read, made⟩ := bind_eq_ok.mp made
  obtain ⟨run, policy, output, rfl⟩ := exists_of_tables read
  exact (sections_of_tables made).2.1.cleanNames

namespace RunOptions

/-- The names in the file of packages that are expected to be clean, if one is given. -/
def Names (t : FileTree) (o : RunOptions) (names : List Text) : Prop :=
  match o.expectedClean with
  | none => names = []
  | some p => CleanSet.load t p = .ok names

theorem Names.valid {t : FileTree} {o : RunOptions} {names : List Text} (named : o.Names t names) :
    ∀ n ∈ names, isPackageName n = true := by
  unfold Names at named
  split at named
  · subst named
    exact List.forall_mem_nil _
  · exact (CleanSet.cleanNames_of_load named).valid

theorem exists_of_config {t : FileTree} {o : RunOptions} {config : Config}
    (built : o.config t = .ok config) : ∃ file merged names, o.configFile t = .ok file ∧
      Config.load t file o.overrides = .ok merged ∧ o.Names t names ∧
      (o.expectedClean = none ∧ config = merged ∨ config = expectClean merged names) := by
  obtain ⟨file, found, built⟩ := bind_eq_ok.mp built
  obtain ⟨merged, loaded, built⟩ := bind_eq_ok.mp built
  refine ⟨file, merged, ?_⟩
  rw [mapError_eq_ok] at found loaded
  split at built
  · next none =>
    cases built
    exact ⟨[], found, loaded, by simp [Names, none], .inl ⟨none, rfl⟩⟩
  · next p given =>
    obtain ⟨names, read, built⟩ := bind_eq_ok.mp built
    cases built
    exact ⟨names, found, loaded, by simpa [Names, given] using read, .inr rfl⟩

/-- A configuration that is built from a file and options is that of the file alone with the options
on top and with more packages expected to be clean. These are what the member is checked to be if
the union is assigned to it, in whatever order. -/
theorem config_eq_onTop {t : FileTree} {o : RunOptions} {file : Option Path} {base config : Config}
    (found : o.configFile t = .ok file) (loaded : Config.load t file [] = .ok base)
    (built : o.config t = .ok config) :
    ∃ names, o.Names t names ∧ config = expectClean (o.onTop base) names ∧
      (∀ n, n ∈ config.policy.expectedClean ↔ n ∈ base.policy.expectedClean ∨ n ∈ names) ∧
      ∀ union : List Text, (∀ n, n ∈ union ↔ n ∈ base.policy.expectedClean ∨ n ∈ names) →
        (o.onTop base).policy.assign "expected_clean" (.ofTexts union) = .ok config.policy := by
  obtain ⟨same, merged, names, refound, reloaded, named, built⟩ := exists_of_config built
  obtain rfl : file = same := Except.ok.inj (found.symm.trans refound)
  obtain ⟨d, read, before⟩ := bind_eq_ok.mp loaded
  obtain ⟨again, reread, after⟩ := bind_eq_ok.mp reloaded
  obtain rfl : d = again := Except.ok.inj (read.symm.trans reread)
  rw [mapError_eq_ok] at before after
  obtain rfl := eq_onTop before after
  have clean := Config.cleanNames_of_ofDocument before
  have kept : (o.onTop base).policy.expectedClean = base.policy.expectedClean := rfl
  have joined : config = expectClean (o.onTop base) names := by
    rcases built with ⟨none, rfl⟩ | rfl
    · have absent : names = [] := by simpa [Names, none] using named
      rw [expectClean, absent, List.append_nil, kept, clean.sorted, ← kept]
    · rfl
  have member : ∀ n, n ∈ config.policy.expectedClean ↔
      n ∈ base.policy.expectedClean ∨ n ∈ names := by
    intro n
    rw [joined, expectClean, mem_sortedSet, List.mem_append, kept]
  refine ⟨names, named, joined, member, fun union same => ?_⟩
  have valid : ∀ n ∈ union, isPackageName n = true := fun n inside =>
    ((same n).mp inside).elim (clean.valid n) (named.valid n)
  have whole : sortedSet union = config.policy.expectedClean := by
    rw [joined, expectClean]
    refine sortedSet_congr fun n => ?_
    rw [same, List.mem_append, kept]
  show assignMember "expected_clean" expectedCleanCheck _ _ = _
  rw [assignMember_eq_ok]
  refine ⟨sortedSet union, expectedCleanCheck_ofTexts valid, ?_⟩
  rw [whole, joined]
  rfl

/-- The file says how many jobs there are and names a package; the options name a lint and a file
with another package, and switch symbols off. -/
theorem config_eq_onTop_file :
    let t : FileTree :=
      { nodes := [(["cratelint.toml"], ⟨.file (Utf8.encode
          "[run]\njobs = 2\n[policy]\nexpected_clean = [\"b\"]\n"), 0⟩),
          (["clean"], ⟨.file (Utf8.encode "a # later\n"), 0⟩)],
        workingDirectory := Path.ofText "/" }
    let o : RunOptions :=
      { workspace := Path.ofText "ws", cratesRoot := Path.ofText "crates", lint := some "x",
        expectedClean := some (Path.ofText "clean"), emoji := false }
    let base : Config := { run := { jobs := some 2 }, policy := { expectedClean := ["b"] } }
    ∃ file config, o.configFile t = .ok file ∧ Config.load t file [] = .ok base ∧
      o.config t = .ok config ∧ config.run = { jobs := some 2, targetLint := some "x" } ∧
      config.output = { emoji := false } ∧
      ∀ n, n ∈ config.policy.expectedClean ↔ n = "b" ∨ n = "a" := by
  intro t o base
  have found : o.configFile t = .ok (some (Path.ofText "/cratelint.toml")) :=
    toOption_eq_some.mp (by decide +kernel)
  have loaded : Config.load t (some (Path.ofText "/cratelint.toml")) [] = .ok base :=
    toOption_eq_some.mp (by decide +kernel)
  have merged : Config.load t (some (Path.ofText "/cratelint.toml")) o.overrides =
      .ok (o.onTop base) := toOption_eq_some.mp (by decide +kernel)
  have names : CleanSet.load t (Path.ofText "clean") = .ok ["a"] :=
    toOption_eq_some.mp (by decide +kernel)
  have built : o.config t = .ok (expectClean (o.onTop base) ["a"]) :=
    bind_eq_ok.mpr ⟨_, mapError_eq_ok.mpr found, bind_eq_ok.mpr ⟨_, mapError_eq_ok.mpr merged,
      bind_eq_ok.mpr ⟨_, mapError_eq_ok.mpr names, rfl⟩⟩⟩
  obtain ⟨others, named, -, member, -⟩ := config_eq_onTop found loaded built
  obtain rfl : [("a" : Text)] = others := Except.ok.inj (names.symm.trans named)
  refine ⟨_, _, found, loaded, built, by decide +kernel, by decide +kernel,
    fun n => (member n).trans ?_⟩
  rw [List.mem_singleton, List.mem_singleton]

end RunOptions
end LintCorpus
