import LintCorpus.Diagnostic
import LintCorpus.Value.Loose

/-!
Records of the build tool. A record carries a compiler message, wrapped or bare; a message with a
code becomes a finding. Attributes that allow a forbidden lint show up as messages of their own.
-/
namespace LintCorpus.Record

def messageReason : Text := "compiler-message"

def diagnosticType : Text := "diagnostic"

def toolPrefix : Text := "clippy::"

/-- The code of an attribute that allows a forbidden lint. -/
def overrideCode : Text := "E0453"

def message? (record : Members) : Option Members :=
  let reason := record.field "reason"
  if reason.isText messageReason then
    let message := (record.field "message").asMembers
    if message.isEmpty then none else some message
  else if !reason.isNull then none
  else if (record.field "$message_type").isText diagnosticType ||
      (record.has "message" && record.has "level") then some record
  else none

def primarySpan? (spans : List Members) : Option Members :=
  (spans.find? fun span =>
    match span.field "is_primary" with
    | .bool true => true
    | _ => false).or spans.head?

/-- The replacement that the first help with one proposes. -/
def suggestion? (message : Members) : Option Text :=
  let helps := (message.field "children").asObjects.filter fun child =>
    (child.field "level").isText "help"
  let spans := helps.flatMap fun child => (child.field "spans").asObjects
  spans.findSome? fun span =>
    match span.field "suggested_replacement" with
    | .text t => some t
    | _ => none

def code? (message : Members) : Option Text :=
  ((message.field "code").asMembers.field "code").asText?

def diagnostic? (record : Members) (package : Text) : Option Diagnostic := do
  let message ← message? record
  let code ← code? message
  if code.isEmpty then none
  else
    let primary := primarySpan? (message.field "spans").asObjects
    let place (name : Text) : Value := (primary.map (Members.field · name)).getD .null
    some {
      package
      rule := code.removeStart toolPrefix
      severity := .ofLevel (message.field "level") .warning
      message := ((message.field "message").asText?.getD []).strip
      file := (place "file_name").asText?
      line := (place "line_start").asInt?
      column := (place "column_start").asInt?
      suggestion := suggestion? message
      rendered := (message.field "rendered").asText? }

/-- Whether a record reports an attribute, written in the package itself, that allows a forbidden
lint. -/
def isOverride (record : Members) : Bool :=
  match message? record with
  | none => false
  | some message =>
    code? message == some overrideCode &&
      (message.field "spans").asObjects.all fun span => (span.field "expansion").isNull

def countOverrides (records : List Members) : Nat := records.countP isOverride

end LintCorpus.Record
