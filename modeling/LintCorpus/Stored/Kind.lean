import LintCorpus.Diff
import LintCorpus.Stored.Form
import LintCorpus.Stored.Part
import LintCorpus.Stored.Schema

/-!
Kinds of records: how one is checked, shown and changed. A name with dots leads from a record to a
part of it, and from there on. What stands under a name is told by the stored form, apart from what
the stored form does not tell from a text or a list.
-/
namespace LintCorpus

/-- A kind of record, with the check and the stored form of its records. `parts` are the names whose
parts the stored form does not show as they are. `assign` is a change, which may be refused, and
`inner?` is how a record under a name is changed along a path. -/
structure RecordKind (α : Type) where
  name : Text
  check : Schema.Check α
  form : α → Value
  parts : α → List (Text × Part) := fun _ => []
  assign : α → Text → Value → α × Option AssignFault
  inner? : α → Text → Option (List Text → Value → α × Option Refusal) := fun _ _ => none

/-- What is left of `a` after a change: `a` itself if it is refused. -/
def keeping {α : Type} (assign : α → Text → Value → Except AssignFault α) (a : α) (name : Text)
    (v : Value) : α × Option AssignFault :=
  match assign a name v with
  | .ok b => (b, none)
  | .error fault => (a, some fault)

def RecordKind.unchanging {α : Type} (name : Text) (check : Schema.Check α) (form : α → Value)
    (parts : List (Text × Part)) : RecordKind α :=
  { name, check, form, parts := fun _ => parts, assign := keeping assignFrozen }

namespace RecordKind

variable {α : Type}

def sharedVerbs : List Text :=
  Text.words "construct copy dict from_orm json model_construct model_copy model_dump" ++
    Text.words "model_dump_json model_json_schema model_parametrized_name model_post_init" ++
    Text.words "model_rebuild model_validate model_validate_json model_validate_strings" ++
    Text.words "parse_file parse_obj parse_raw schema schema_json update_forward_refs validate"

def sharedParts : List (Text × Part) :=
  let verbs : List (Text × Part) := sharedVerbs.map fun verb => (verb, .action)
  let others : List (Text × Part) :=
    [("model_extra", .nothing), ("model_fields_set", .set), ("__fields_set__", .set),
      ("model_fields", .map), ("__fields__", .map), ("model_computed_fields", .map),
      ("model_config", .map), ("__class_vars__", .set), ("__private_attributes__", .map),
      ("__annotations__", .map), ("__weakref__", .nothing), ("__dict__", .map),
      ("__doc__", .text), ("__module__", .text)]
  others ++ verbs

def part? (k : RecordKind α) (a : α) (name : Text) : Option Part :=
  ((k.parts a ++ sharedParts).lookup name).or (((k.form a).member? name).map Part.ofValue)

def assignAlong (k : RecordKind α) (a : α) : List Text → Value → α × Option Refusal
  | [], _ => (a, none)
  | [name], v =>
    let (b, fault) := k.assign a name v
    (b, fault.map (⟨k.name, ·⟩))
  | name :: rest, v =>
    match k.inner? a name, k.part? a name with
    | some change, _ => change rest v
    | none, some part => (a, part.assignAlong rest v)
    | none, none => (a, some ⟨k.name, .noMember name⟩)

def assignAt (k : RecordKind α) (a : α) (name : Text) (v : Value) : α × Option Refusal :=
  k.assignAlong a (Text.splitAt '.'.toNat name) v

end RecordKind

def Package.kind (base : Path) : RecordKind Package where
  name := "Package"
  check := Package.check base
  form := Package.toValue
  parts _ := [("path", .path), ("state", .choice "BuildState")]
  assign := keeping (Package.assign base)

def Diagnostic.keyPart : Part :=
  .row "DiagnosticKey" ["package", "rule", "file", "line", "column", "message"]

def Diagnostic.kind : RecordKind Diagnostic :=
  .unchanging "Diagnostic" Diagnostic.check Diagnostic.toValue
    [("severity", .choice "Severity"), ("key", keyPart), ("location", .text),
      ("sort_key", .action), ("is_compiler_error", .action)]

def Issue.kind : RecordKind Issue := .unchanging "ParseIssue" Issue.check Issue.toValue []

def Parsed.kind : RecordKind Parsed :=
  .unchanging "ParseResult" Parsed.check Parsed.toValue
    [("diagnostics", .sequence), ("issues", .sequence), ("partially_unparsed", .flag),
      ("lint_diagnostics", .action)]

def Outcome.kind : RecordKind Outcome where
  name := "PackageOutcome"
  check := Outcome.check
  form := Outcome.toValue
  parts _ := [("status", .choice "InvocationStatus"), ("evaluated", .flag)]
  assign := keeping Outcome.assign

def Summary.kind : RecordKind Summary :=
  .unchanging "RunSummary" Summary.check Summary.toValue []

def CorpusResult.kind : RecordKind CorpusResult where
  name := "AggregateResult"
  check := CorpusResult.ofValue
  form := CorpusResult.toValue
  parts _ :=
    [("root", .path), ("iter_diagnostics", .action), ("diagnostics_for", .action),
      ("keys", .action), ("summary", .action)]
  assign := CorpusResult.assign

def ResultDiff.kind : RecordKind ResultDiff :=
  .unchanging "ResultDiff" ResultDiff.check ResultDiff.toValue
    [("introduced", .sequence), ("resolved", .sequence), ("has_changes", .flag)]

end LintCorpus
