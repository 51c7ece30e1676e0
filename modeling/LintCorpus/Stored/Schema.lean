import LintCorpus.CorpusResult
import LintCorpus.Schema.Objection
import LintCorpus.Schema.Scalar
import LintCorpus.Stored.AssignFault

/-!
Reading the stored forms of findings, outcomes and results back, and changing single members of
them. A change is checked like a whole value; when it is refused nothing changes. Only the members
of a result are changed one by one before the result is checked as a whole.
-/
namespace LintCorpus

open Schema

/-- Whether a name is private. A record holds nothing under such a name, but hardly anything keeps
one from assigning to it. -/
def isPrivateName (name : Text) : Bool := name.startsWith "_"

def derivedNames : List Text := ["model_extra", "model_fields_set"]

def assignPrivate {α : Type} (a : α) (name : Text) (v : Value) : Except AssignFault α :=
  if name = "__fields_set__" ∨ name = "__fields__" then .error (.noSetter name)
  else if name = "__weakref__" then .error (.notWritable name)
  else if name = "__class__" then .error (.notAKind v.typeName)
  else if name = "__dict__" ∧ v.members?.isNone then .error (.notADictionary v.typeName)
  else .ok a

def assignOther {α : Type} (a : α) (name : Text) (v : Value) : Except AssignFault α :=
  if isPrivateName name then assignPrivate a name v
  else if derivedNames.contains name then .error (.noSetter name)
  else
    match Utf8.encodeStrict name with
    | .ok _ => .error (.unknown name)
    | .error fault => .error (.unencodable fault)

def assignFrozen {α : Type} (a : α) (name : Text) (v : Value) : Except AssignFault α :=
  if isPrivateName name then assignPrivate a name v else .error (.frozen name)

def assignMember {α β : Type} (name : Text) (check : Check α) (v : Value) (set : α → β) :
    Except AssignFault β :=
  match (check v).inside (.member name) with
  | .valid a => .ok (set a)
  | .invalid faults => .error (.invalid faults)

namespace Severity

def check : Check Severity := named all name

end Severity

namespace Status

def check : Check Status := named all name

end Status

namespace Diagnostic

def check : Check Diagnostic :=
  record "Diagnostic" fun m =>
    Diagnostic.mk <$> required m "package" text <*> required m "rule" text <*>
      required m "severity" Severity.check <*> required m "message" text <*>
      defaulted m "file" none (optional text) <*> defaulted m "line" none (optional int) <*>
      defaulted m "column" none (optional int) <*> defaulted m "suggestion" none (optional text) <*>
      defaulted m "rendered" none (optional text)

end Diagnostic

namespace Issue

def check : Check Issue :=
  record "ParseIssue" fun m =>
    Issue.mk <$> required m "line" int <*> required m "reason" text <*>
      defaulted m "excerpt" [] text

end Issue

namespace Parsed

def check : Check Parsed :=
  record "ParseResult" fun m =>
    Parsed.mk <$> defaulted m "diagnostics" [] (sequence Diagnostic.check) <*>
      defaulted m "issues" [] (sequence Issue.check) <*> defaulted m "records" 0 int <*>
      defaulted m "unparsed" false bool

end Parsed

namespace Package

def absolutePath (base : Path) : Check Path := fun v => (·.absolute base) <$> Schema.path v

def check (base : Path) : Check Package :=
  record "Package" fun m =>
    Package.mk <$> required m "name" text <*> required m "path" (absolutePath base) <*>
      defaulted m "state" .unknown (named BuildState.all BuildState.name)

def assign (base : Path) (p : Package) (name : Text) (v : Value) : Except AssignFault Package :=
  if name = "name" then assignMember name text v fun a => { p with name := a }
  else if name = "path" then assignMember name (absolutePath base) v fun a => { p with path := a }
  else if name = "state" then
    assignMember name (named BuildState.all BuildState.name) v fun a => { p with state := a }
  else assignOther p name v

end Package

namespace Outcome

def check : Check Outcome :=
  record "PackageOutcome" fun m =>
    Outcome.mk <$> required m "name" text <*> required m "status" Status.check <*>
      defaulted m "returncode" none (optional int) <*> defaulted m "diagnostics" 0 int <*>
      defaulted m "filtered_out" 0 int <*> defaulted m "unparsed_output" false bool <*>
      defaulted m "parse_issues" 0 int <*> defaulted m "duration_s" (.zero false) float <*>
      defaulted m "allow_count" none (optional int) <*> defaulted m "tail" [] text

/-- Changes a member. Whether a package was evaluated follows from the rest and cannot be set. -/
def assign (o : Outcome) (name : Text) (v : Value) : Except AssignFault Outcome :=
  if name = "name" then assignMember name text v fun a => { o with name := a }
  else if name = "status" then assignMember name Status.check v fun a => { o with status := a }
  else if name = "returncode" then
    assignMember name (optional int) v fun a => { o with returncode := a }
  else if name = "diagnostics" then assignMember name int v fun a => { o with diagnostics := a }
  else if name = "filtered_out" then assignMember name int v fun a => { o with filteredOut := a }
  else if name = "unparsed_output" then
    assignMember name bool v fun a => { o with unparsedOutput := a }
  else if name = "parse_issues" then assignMember name int v fun a => { o with parseIssues := a }
  else if name = "duration_s" then assignMember name float v fun a => { o with duration := a }
  else if name = "allow_count" then
    assignMember name (optional int) v fun a => { o with allowCount := a }
  else if name = "tail" then assignMember name text v fun a => { o with tail := a }
  else if name = "evaluated" then .error (.noSetter name)
  else assignOther o name v

end Outcome

namespace Summary

def check : Check Summary :=
  record "RunSummary" fun m =>
    Summary.mk <$> defaulted m "attempted" 0 int <*> defaulted m "succeeded" 0 int <*>
      defaulted m "had_findings" 0 int <*> defaulted m "failed_to_build" 0 int <*>
      defaulted m "crashed" 0 int <*> defaulted m "timed_out" 0 int <*>
      defaulted m "diagnostics" 0 int

end Summary

namespace CorpusResult

def filedCheck : Check (Dict (List Diagnostic)) := map (list Diagnostic.check)

/-- A result without faults, or the first fault as that of the whole. -/
def checkValid (r : CorpusResult) : Checked CorpusResult :=
  match r.check with
  | .ok r => .valid r
  | .error fault => .fail (.rejected fault.message)

def ofMembers (m : Members) : Checked CorpusResult :=
  (CorpusResult.mk <$> required m "root" path <*> defaulted m "target_lint" none (optional text) <*>
    defaulted m "packages" [] (list text) <*>
    defaulted m "outcomes" .empty (map Outcome.check) <*>
    defaulted m "diagnostics" .empty filedCheck).andThen checkValid

def ofValue : Check CorpusResult := record "AggregateResult" ofMembers

def setMember (r : CorpusResult) (name : Text) (v : Value) : Except AssignFault CorpusResult :=
  if name = "root" then assignMember name path v fun a => { r with root := a }
  else if name = "target_lint" then
    assignMember name (optional text) v fun a => { r with targetLint := a }
  else if name = "packages" then assignMember name (list text) v fun a => { r with packages := a }
  else if name = "outcomes" then
    assignMember name (map Outcome.check) v fun a => { r with outcomes := a }
  else if name = "diagnostics" then
    assignMember name filedCheck v fun a => { r with diagnostics := a }
  else assignOther r name v

/-- The result after a change of a member, and what is wrong. A member that passes its own check is
changed even if the result as a whole is at fault then. -/
def assign (r : CorpusResult) (name : Text) (v : Value) : CorpusResult × Option AssignFault :=
  match r.setMember name v with
  | .error fault => (r, some fault)
  | .ok changed =>
    if isPrivateName name then (changed, none)
    else
      match changed.checkValid with
      | .valid _ => (changed, none)
      | .invalid faults => (changed, some (.invalid faults))

end CorpusResult
end LintCorpus
