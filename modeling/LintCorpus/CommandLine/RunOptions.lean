import LintCorpus.CommandLine.Arguments
import LintCorpus.Config.CleanSet
import LintCorpus.Config.Load

/-!
The options of a run and the configuration that they and a file amount to. An option that was not
given changes nothing, and a flag never takes back what the file says.
-/
namespace LintCorpus

structure RunOptions where
  workspace : Path
  cratesRoot : Path
  lint : Option Text := none
  jobs : Option Int := none
  timeout : Option Binary64 := none
  expectedClean : Option Path := none
  failOnCompileError : Bool := false
  checkAllows : Bool := false
  jsonOut : Option Path := none
  reportOut : Option Path := none
  configPath : Option Path := none
  skipBuild : Bool := false
  emoji : Bool := true
  color : Bool := true
  progress : Bool := true

namespace RunOptions

def given {α : Type} (name : Text) (value : Option α) (write : α → Value) : Members :=
  value.toList.map fun a => (name, write a)

/-- A member for a flag that was set; it has the value `meaning`. -/
def switched (name : Text) (isSet meaning : Bool) : Members :=
  if isSet then [(name, .bool meaning)] else []

def pathValue (p : Path) : Value := .text p.toText

def runOverrides (o : RunOptions) : Members :=
  given "target_lint" o.lint .text ++ given "jobs" o.jobs .int ++
    given "timeout_s" o.timeout .float ++ switched "check_allows" o.checkAllows true ++
    switched "skip_build" o.skipBuild true

def policyOverrides (o : RunOptions) : Members :=
  switched "compile_errors_fail" o.failOnCompileError true

def outputOverrides (o : RunOptions) : Members :=
  given "json_out" o.jsonOut pathValue ++ given "report_out" o.reportOut pathValue ++
    switched "emoji" (!o.emoji) false ++ switched "color" (!o.color) false ++
    switched "progress" (!o.progress) false

def overrides (o : RunOptions) : Overrides :=
  [("run", o.runOverrides), ("policy", o.policyOverrides), ("output", o.outputOverrides)]

end RunOptions

inductive OptionsFault where
  | config (fault : ConfigFault)
  | cleanSet (fault : CleanSetFault)
deriving DecidableEq

def OptionsFault.message : OptionsFault → Text
  | .config fault => fault.message
  | .cleanSet fault => fault.message

namespace RunOptions

def defaultConfigName : Text := "cratelint.toml"

def configFile (t : FileTree) (o : RunOptions) : Except FileFault (Option Path) :=
  match o.configPath with
  | some p => .ok (some p)
  | none => do
    let candidate := t.workingDirectory.child defaultConfigName
    return if ← t.isFile candidate then some candidate else none

/-- The configuration with more packages that are expected to be clean. -/
def expectClean (config : Config) (names : List Text) : Config :=
  { config with policy := { config.policy with
      expectedClean := sortedSet (config.policy.expectedClean ++ names) } }

def config (t : FileTree) (o : RunOptions) : Except (Failure OptionsFault) Config := do
  let file ← (o.configFile t).mapError Failure.aborted
  let config ← (Config.load t file o.overrides).mapError (Failure.mapReported OptionsFault.config)
  match o.expectedClean with
  | none => return config
  | some p =>
    let names ← (CleanSet.load t p).mapError (Failure.mapReported OptionsFault.cleanSet)
    return expectClean config names

end RunOptions
end LintCorpus
