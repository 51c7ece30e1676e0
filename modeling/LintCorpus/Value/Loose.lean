import LintCorpus.Value
import LintCorpus.Number.Shortest
import LintCorpus.Text.Integer

/-!
Reading loosely typed members. Records come from many compilers, so a member of the wrong kind
counts as missing and numbers may be given as text.
-/
namespace LintCorpus

abbrev Members := List (Text × Value)

namespace Members

def field (m : Members) (name : Text) : Value := (m.lookup name).getD .null

def has (m : Members) (name : Text) : Bool := (m.lookup name).isSome

end Members

namespace Value

/-- The members of an object, none of anything else. -/
def asMembers (v : Value) : Members := v.members?.getD []

def asObjects : Value → List Members
  | .list items => items.filterMap members?
  | _ => []

def asInt? : Value → Option Int
  | .int i => some i
  | .text t => t.toInt?
  | _ => none

def asText? : Value → Option Text
  | .text t => some t
  | .bool b => some (if b then "True" else "False")
  | .int i => some (Text.ofInt i)
  | .float x => some x.toText
  | _ => none

def isText (v : Value) (t : Text) : Bool :=
  match v with
  | .text u => u == t
  | _ => false

def isNull : Value → Bool
  | .null => true
  | _ => false

end Value
end LintCorpus
