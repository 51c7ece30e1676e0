import LintCorpus.Dict
import LintCorpus.Value.Loose

/-!
Checking values against what is expected of them. A check gives a typed value or all the faults it
found, each with the place of the offending part. Faults come in the order in which the parts are
declared.
-/
namespace LintCorpus

inductive Place where
  | member (name : Text)
  | item (index : Nat)
deriving DecidableEq

inductive Fault where
  | missing
  | extraForbidden
  | textExpected
  | textIllFormed
  | intExpected
  | intUnreadable
  | intFractional
  | intTooLarge
  | notFinite
  | floatExpected
  | floatUnreadable
  | boolExpected
  | boolUnreadable
  | nameExpected (names : List Text)
  | pathExpected
  | listExpected
  | sequenceExpected
  | mapExpected
  | recordExpected (name : Text)
  | belowMinimum (minimum : Text)
  | notAbove (bound : Text)
  | rejected (reason : Text)
  | frozen
  | unknownAttribute (name : Text)
deriving DecidableEq

structure Located where
  place : List Place
  fault : Fault
deriving DecidableEq

/-- A value of the type expected, or everything that is wrong. -/
inductive Checked (α : Type) where
  | valid (a : α)
  | invalid (faults : List Located)

namespace Checked

variable {α β : Type}

instance : Applicative Checked where
  pure := .valid
  seq f x :=
    match f, x () with
    | .valid f, .valid a => .valid (f a)
    | .valid _, .invalid bs => .invalid bs
    | .invalid as, .valid _ => .invalid as
    | .invalid as, .invalid bs => .invalid (as ++ bs)

def fail (fault : Fault) : Checked α := .invalid [⟨[], fault⟩]

/-- The same check seen from a value of which this one is a part. -/
def inside (place : Place) : Checked α → Checked α
  | .valid a => .valid a
  | .invalid faults => .invalid (faults.map fun f => { f with place := place :: f.place })

def andThen (f : α → Checked β) : Checked α → Checked β
  | .valid a => f a
  | .invalid faults => .invalid faults

def toExcept : Checked α → Except (List Located) α
  | .valid a => .ok a
  | .invalid faults => .error faults

def all : List (Checked α) → Checked (List α)
  | [] => .valid []
  | c :: rest => List.cons <$> c <*> all rest

end Checked

namespace Schema

variable {α : Type}

abbrev Check (α : Type) := Value → Checked α

def text : Check Text
  | .text t => .valid t
  | _ => .fail .textExpected

/-- A text that stands for something else. Only characters can, so it holds no surrogates. -/
def reading (read : Text → Checked α) (t : Text) : Checked α :=
  if t.any Text.isSurrogate then .fail .textIllFormed else read t

def optional (check : Check α) : Check (Option α)
  | .null => .valid none
  | v => some <$> check v

def named (all : List α) (name : α → Text) : Check α
  | .text t => t |> reading fun t =>
    match all.find? fun a => name a == t with
    | some a => .valid a
    | none => .fail (.nameExpected (all.map name))
  | _ => .fail (.nameExpected (all.map name))

def itemsFrom (check : Check α) (index : Nat) : List Value → List (Checked α)
  | [] => []
  | v :: rest => (check v).inside (.item index) :: itemsFrom check (index + 1) rest

def list (check : Check α) : Check (List α)
  | .list items => .all (itemsFrom check 0 items)
  | _ => .fail .listExpected

def sequence (check : Check α) : Check (List α)
  | .list items => .all (itemsFrom check 0 items)
  | _ => .fail .sequenceExpected

def map (check : Check α) : Check (Dict α)
  | .object members =>
    Dict.ofList <$> .all (members.map fun m =>
      (m.1, ·) <$> (check m.2).inside (.member m.1))
  | _ => .fail .mapExpected

def record (name : Text) (check : Members → Checked α) : Check α
  | .object members => check members
  | _ => .fail (.recordExpected name)

def required (m : Members) (name : Text) (check : Check α) : Checked α :=
  match m.lookup name with
  | some v => (check v).inside (.member name)
  | none => (Checked.fail .missing).inside (.member name)

def defaulted (m : Members) (name : Text) (default : α) (check : Check α) : Checked α :=
  match m.lookup name with
  | some v => (check v).inside (.member name)
  | none => .valid default

/-- Refuses members with other names, in the order in which they stand. -/
def only (names : List Text) (m : Members) : Checked Unit :=
  match m.filter fun entry => !names.contains entry.1 with
  | [] => .valid ()
  | extra => .invalid (extra.map fun entry => ⟨[.member entry.1], .extraForbidden⟩)

/-- A record without other members. Names are read before anything else, so one that is no text for
the system is the only fault that is found. -/
def closedRecord (name : Text) (names : List Text) (check : Members → Checked α) : Check α :=
  record name fun m =>
    if m.any fun entry => entry.1.any Text.isSurrogate then .fail .textIllFormed
    else (fun a _ => a) <$> check m <*> only names m

end Schema

def alternatives (names : List Text) : Text :=
  let quotes : List Text := names.map fun (name : Text) => "'" ++ name ++ "'"
  match quotes.reverse with
  | [] => []
  | [one] => one
  | last :: rest => Text.join ", " rest.reverse ++ " or " ++ last

namespace Fault

def kind : Fault → Text
  | .missing => "missing"
  | .extraForbidden => "extra_forbidden"
  | .textExpected => "string_type"
  | .textIllFormed => "string_unicode"
  | .intExpected => "int_type"
  | .intUnreadable => "int_parsing"
  | .intFractional => "int_from_float"
  | .intTooLarge => "int_parsing_size"
  | .notFinite => "finite_number"
  | .floatExpected => "float_type"
  | .floatUnreadable => "float_parsing"
  | .boolExpected => "bool_type"
  | .boolUnreadable => "bool_parsing"
  | .nameExpected _ => "enum"
  | .pathExpected => "path_type"
  | .listExpected => "list_type"
  | .sequenceExpected => "tuple_type"
  | .mapExpected => "dict_type"
  | .recordExpected _ => "model_type"
  | .belowMinimum _ => "greater_than_equal"
  | .notAbove _ => "greater_than"
  | .rejected _ => "value_error"
  | .frozen => "frozen_instance"
  | .unknownAttribute _ => "no_such_attribute"

def message : Fault → Text
  | .missing => "Field required"
  | .extraForbidden => "Extra inputs are not permitted"
  | .textExpected => "Input should be a valid string"
  | .textIllFormed =>
    "Input should be a valid string, unable to parse raw data as a unicode string"
  | .intExpected => "Input should be a valid integer"
  | .intUnreadable => "Input should be a valid integer, unable to parse string as an integer"
  | .intFractional => "Input should be a valid integer, got a number with a fractional part"
  | .intTooLarge => "Unable to parse input string as an integer, exceeded maximum size"
  | .notFinite => "Input should be a finite number"
  | .floatExpected => "Input should be a valid number"
  | .floatUnreadable => "Input should be a valid number, unable to parse string as a number"
  | .boolExpected => "Input should be a valid boolean"
  | .boolUnreadable => "Input should be a valid boolean, unable to interpret input"
  | .nameExpected names => "Input should be " ++ alternatives names
  | .pathExpected => "Input is not a valid path for <class 'pathlib.Path'>"
  | .listExpected => "Input should be a valid list"
  | .sequenceExpected => "Input should be a valid tuple"
  | .mapExpected => "Input should be a valid dictionary"
  | .recordExpected name => "Input should be a valid dictionary or instance of " ++ name
  | .belowMinimum minimum => "Input should be greater than or equal to " ++ minimum
  | .notAbove bound => "Input should be greater than " ++ bound
  | .rejected reason => "Value error, " ++ reason
  | .frozen => "Instance is frozen"
  | .unknownAttribute name => "Object has no attribute '" ++ name ++ "'"

end Fault
end LintCorpus
