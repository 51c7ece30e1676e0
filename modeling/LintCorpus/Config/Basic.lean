import LintCorpus.Schema.Scalar
import LintCorpus.Stored.Form
import LintCorpus.Stored.Schema
import LintCorpus.Text.Blank
import LintCorpus.Value.Describe

/-!
The configuration of a run: how packages are linted, what makes a run fail, and where output goes.
-/
namespace LintCorpus

open Schema

def sortedSet (ts : List Text) : List Text := Text.sort ts.eraseDups

/-- How packages are linted. Without a count of jobs there is one for each processor. -/
structure RunConfig where
  jobs : Option Int := none
  timeout : Binary64 := Binary64.ofInt 600
  targetLint : Option Text := none
  checkAllows : Bool := false
  skipBuild : Bool := false
  touchCrateRoots : Bool := true
  extraEnv : Dict Text := .empty
deriving DecidableEq

/-- What makes a run fail. The packages expected to be clean are sorted. -/
structure PolicyConfig where
  compileErrorsFail : Bool := false
  expectedClean : List Text := []
deriving DecidableEq

structure OutputConfig where
  emoji : Bool := true
  color : Bool := true
  progress : Bool := true
  reportOut : Option Path := none
  jsonOut : Option Path := none
deriving DecidableEq

structure Config where
  run : RunConfig := {}
  policy : PolicyConfig := {}
  output : OutputConfig := {}
deriving DecidableEq

/-- Whether a text can name a package: it has code points, none of them a blank, a separator of
paths or the mark of a comment. -/
def isPackageName (t : Text) : Bool :=
  !t.isEmpty && t.all fun c =>
    !Text.isBlank c && c != '/'.toNat && c != '\\'.toNat && c != '#'.toNat

def packageNames (values : List Value) : Except Value (List Text) :=
  values.mapM fun v =>
    match v with
    | .text t => if isPackageName t then .ok t else .error v
    | _ => .error v

def badPackageName (v : Value) : Text :=
  "invalid package name in expected-clean set: " ++ v.describe

/-- Package names: the items of a list, or the names of an object's members. -/
def expectedCleanCheck : Check (List Text) := fun v =>
  let settle (values : List Value) : Checked (List Text) :=
    match packageNames values with
    | .ok names => .valid (sortedSet names)
    | .error v => .fail (.rejected (badPackageName v))
  match v with
  | .list items => settle items
  | .object members => settle (members.map fun m => .text m.1)
  | _ => .fail (.rejected "expected_clean must be a list of package names")

def jobsCheck : Check (Option Int) := fun v =>
  (int v).andThen fun i => if 1 ≤ i then .valid (some i) else .fail (.belowMinimum "1")

def timeoutCheck : Check Binary64 := fun v =>
  (float v).andThen fun x => if (Binary64.zero false).lt x then .valid x else .fail (.notAbove "0")

namespace RunConfig

def names : List Text :=
  ["jobs", "timeout_s", "target_lint", "check_allows", "skip_build", "touch_crate_roots",
    "extra_env"]

def check : Check RunConfig :=
  closedRecord "RunConfig" names fun m =>
    RunConfig.mk <$> defaulted m "jobs" none jobsCheck <*>
      defaulted m "timeout_s" (Binary64.ofInt 600) timeoutCheck <*>
      defaulted m "target_lint" none (optional text) <*>
      defaulted m "check_allows" false bool <*> defaulted m "skip_build" false bool <*>
      defaulted m "touch_crate_roots" true bool <*>
      defaulted m "extra_env" .empty (map text)

def assign (c : RunConfig) (name : Text) (v : Value) : Except AssignFault RunConfig :=
  if name = "jobs" then assignMember name jobsCheck v fun a => { c with jobs := a }
  else if name = "timeout_s" then assignMember name timeoutCheck v fun a => { c with timeout := a }
  else if name = "target_lint" then
    assignMember name (optional text) v fun a => { c with targetLint := a }
  else if name = "check_allows" then assignMember name bool v fun a => { c with checkAllows := a }
  else if name = "skip_build" then assignMember name bool v fun a => { c with skipBuild := a }
  else if name = "touch_crate_roots" then
    assignMember name bool v fun a => { c with touchCrateRoots := a }
  else if name = "extra_env" then assignMember name (map text) v fun a => { c with extraEnv := a }
  else assignOther c name v

def toValue (c : RunConfig) : Value :=
  .object [("jobs", .ofInt? c.jobs), ("timeout_s", .float c.timeout),
    ("target_lint", .ofText? c.targetLint), ("check_allows", .bool c.checkAllows),
    ("skip_build", .bool c.skipBuild), ("touch_crate_roots", .bool c.touchCrateRoots),
    ("extra_env", .object (c.extraEnv.mapValues Value.text).entries)]

end RunConfig

namespace PolicyConfig

def names : List Text := ["compile_errors_fail", "expected_clean"]

def check : Check PolicyConfig :=
  closedRecord "PolicyConfig" names fun m =>
    PolicyConfig.mk <$> defaulted m "compile_errors_fail" false bool <*>
      defaulted m "expected_clean" [] expectedCleanCheck

def assign (c : PolicyConfig) (name : Text) (v : Value) : Except AssignFault PolicyConfig :=
  if name = "compile_errors_fail" then
    assignMember name bool v fun a => { c with compileErrorsFail := a }
  else if name = "expected_clean" then
    assignMember name expectedCleanCheck v fun a => { c with expectedClean := a }
  else assignOther c name v

def toValue (c : PolicyConfig) : Value :=
  .object [("compile_errors_fail", .bool c.compileErrorsFail),
    ("expected_clean", .ofTexts c.expectedClean)]

end PolicyConfig

namespace OutputConfig

def names : List Text := ["emoji", "color", "progress", "report_out", "json_out"]

def check : Check OutputConfig :=
  closedRecord "OutputConfig" names fun m =>
    OutputConfig.mk <$> defaulted m "emoji" true bool <*>
      defaulted m "color" true bool <*> defaulted m "progress" true bool <*>
      defaulted m "report_out" none (optional path) <*>
      defaulted m "json_out" none (optional path)

def assign (c : OutputConfig) (name : Text) (v : Value) : Except AssignFault OutputConfig :=
  if name = "emoji" then assignMember name bool v fun a => { c with emoji := a }
  else if name = "color" then assignMember name bool v fun a => { c with color := a }
  else if name = "progress" then assignMember name bool v fun a => { c with progress := a }
  else if name = "report_out" then
    assignMember name (optional path) v fun a => { c with reportOut := a }
  else if name = "json_out" then
    assignMember name (optional path) v fun a => { c with jsonOut := a }
  else assignOther c name v

def toValue (c : OutputConfig) : Value :=
  .object [("emoji", .bool c.emoji), ("color", .bool c.color), ("progress", .bool c.progress),
    ("report_out", .ofText? (c.reportOut.map Path.toText)),
    ("json_out", .ofText? (c.jsonOut.map Path.toText))]

end OutputConfig

namespace Config

/-- The whole configuration. Other members are ignored. -/
def check : Check Config :=
  record "Config" fun m =>
    Config.mk <$> defaulted m "run" {} RunConfig.check <*>
      defaulted m "policy" {} PolicyConfig.check <*> defaulted m "output" {} OutputConfig.check

def assign (c : Config) (name : Text) (v : Value) : Except AssignFault Config :=
  if name = "run" then assignMember name RunConfig.check v fun run => { c with run }
  else if name = "policy" then
    assignMember name PolicyConfig.check v fun policy => { c with policy }
  else if name = "output" then
    assignMember name OutputConfig.check v fun output => { c with output }
  else assignOther c name v

def toValue (c : Config) : Value :=
  .object [("run", c.run.toValue), ("policy", c.policy.toValue), ("output", c.output.toValue)]

end Config
end LintCorpus
