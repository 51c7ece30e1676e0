import LintCorpus.Schema.Basic
import LintCorpus.Text.Utf8
import LintCorpus.Value.Describe

/-!
Telling the faults of a value. Every fault is told with its place, its wording, the part of the
value that it is about and where the kind of fault is explained.
-/
namespace LintCorpus

def Place.toValue : Place → Value
  | .member name => .text (Utf8.scrub name)
  | .item index => .ofNat index

/-- A step to a part, as it stands between dots. A name with dots of its own is set apart. -/
def Place.describe : Place → Text
  | .member name =>
    if List.elem '.'.toNat name then "\x60" ++ Utf8.scrub name ++ "\x60" else Utf8.scrub name
  | .item index => Text.ofNat index

namespace Value

/-- The part that a place leads to, or what it leads to before something is missing. -/
def nearest : Value → List Place → Value
  | v, [] => v
  | v, .member name :: rest =>
    match v.member? name with
    | some part => part.nearest rest
    | none => v
  | .list items, .item index :: rest =>
    match items[index]? with
    | some part => part.nearest rest
    | none => .list items
  | v, .item _ :: _ => v

def typeName : Value → Text
  | .null => "NoneType"
  | .bool _ => "bool"
  | .int _ => "int"
  | .float _ => "float"
  | .text _ => "str"
  | .list _ => "list"
  | .object _ => "dict"
  | .date _ => "date"
  | .clock _ => "time"
  | .moment .. => "datetime"

end Value

def fitting (budget : Nat) : Text → Text
  | [] => []
  | c :: rest =>
    let size := (Utf8.encodeOne c).length
    if size ≤ budget then c :: fitting (budget - size) rest else []

/-- A text of at most 50 bytes, or else its beginning and its end with dots between them. -/
def abridge (t : Text) : Text :=
  if (Utf8.encode t).length ≤ 50 then t
  else fitting 25 t ++ "..." ++ (fitting 24 t.reverse).reverse

structure Objection extends Located where
  shown : Text
  typeName : Text
deriving DecidableEq

namespace Objection

def about (v : Value) (l : Located) : Objection :=
  let part := v.nearest l.place
  { l with shown := abridge part.describe, typeName := part.typeName }

def guide (kind : Text) : Text :=
  Text.join "/" ["https:", [], "errors.pydantic.dev", "2.11", "v", kind]

def reference : Fault → Text
  | .pathExpected => []
  | fault => "\n    For further information visit " ++ guide fault.kind

def describe (o : Objection) : Text :=
  let place : Text :=
    if o.place.isEmpty then [] else Text.join "." (o.place.map Place.describe) ++ "\n"
  place ++ "  " ++ o.fault.message ++ " [type=" ++ o.fault.kind ++ ", input_value=" ++ o.shown ++
    ", input_type=" ++ o.typeName ++ "]" ++ reference o.fault

def describeAll (name : Text) (objections : List Objection) : Text :=
  let noun : Text := if objections.length = 1 then "error" else "errors"
  let lines : List Text := objections.map describe
  Text.join "\n"
    ((Text.ofNat objections.length ++ " validation " ++ noun ++ " for " ++ name) :: lines)

end Objection
end LintCorpus
