import LintCorpus.Config.Basic
import LintCorpus.Stored.Kind

/-!
The kinds of records that make up a configuration. The sections of a configuration are records
themselves, so a name with a dot leads to a member of a section.
-/
namespace LintCorpus

def RunConfig.kind : RecordKind RunConfig where
  name := "RunConfig"
  check := RunConfig.check
  form := RunConfig.toValue
  parts _ := [("jobs", .integer)]
  assign := keeping RunConfig.assign

def PolicyConfig.kind : RecordKind PolicyConfig where
  name := "PolicyConfig"
  check := PolicyConfig.check
  form := PolicyConfig.toValue
  parts _ := [("expected_clean", .fixedSet)]
  assign := keeping PolicyConfig.assign

def OutputConfig.pathPart (path : Option Path) : Part := if path.isSome then .path else .nothing

def OutputConfig.kind : RecordKind OutputConfig where
  name := "OutputConfig"
  check := OutputConfig.check
  form := OutputConfig.toValue
  parts c := [("report_out", pathPart c.reportOut), ("json_out", pathPart c.jsonOut)]
  assign := keeping OutputConfig.assign

namespace Config

/-- Changes a section along a path. -/
def inner? (c : Config) (name : Text) : Option (List Text → Value → Config × Option Refusal) :=
  if name = "run" then
    some fun path v => (RunConfig.kind.assignAlong c.run path v).map (fun run => { c with run }) id
  else if name = "policy" then
    some fun path v =>
      (PolicyConfig.kind.assignAlong c.policy path v).map (fun policy => { c with policy }) id
  else if name = "output" then
    some fun path v =>
      (OutputConfig.kind.assignAlong c.output path v).map (fun output => { c with output }) id
  else none

def kind : RecordKind Config where
  name := "Config"
  check := Config.check
  form := Config.toValue
  assign := keeping Config.assign
  inner? := inner?

end Config
end LintCorpus
