import LintCorpus.Number.Shortest
import LintCorpus.Text.Quoted
import LintCorpus.Value

/-!
How values are quoted in messages.
-/
namespace LintCorpus

/-- The arguments of a time of day; seconds and their parts are left out when they are zero. -/
def Clock.arguments (c : Clock) : List Nat :=
  if c.microsecond ≠ 0 then [c.hour, c.minute, c.second, c.microsecond]
  else if c.second ≠ 0 then [c.hour, c.minute, c.second]
  else [c.hour, c.minute]

def Date.arguments (d : Date) : List Nat := [d.year, d.month, d.day]

def commaNumbers (ns : List Nat) : Text := Text.join ", " (ns.map Text.ofNat)

/-- An offset from universal time, given in minutes; a negative one counts on from the day
before. -/
def describeOffset (minutes : Int) : Text :=
  if minutes = 0 then "datetime.timezone.utc"
  else
    let inside : Text :=
      if minutes < 0 then "days=-1, seconds=" ++ Text.ofInt (86400 + minutes * 60)
      else "seconds=" ++ Text.ofInt (minutes * 60)
    "datetime.timezone(datetime.timedelta(" ++ inside ++ "))"

namespace Value

mutual

def describe : Value → Text
  | .null => "None"
  | .bool b => if b then "True" else "False"
  | .int i => Text.ofInt i
  | .float x => x.toText
  | .text t => t.quoted
  | .list items => "[" ++ Text.join ", " (describeItems items) ++ "]"
  | .object members => "\x7b" ++ Text.join ", " (describeMembers members) ++ "\x7d"
  | .date d => "datetime.date(" ++ commaNumbers d.arguments ++ ")"
  | .clock c => "datetime.time(" ++ commaNumbers c.arguments ++ ")"
  | .moment d c offset =>
    "datetime.datetime(" ++ commaNumbers (d.arguments ++ c.arguments) ++
      (match offset with
        | none => []
        | some minutes => ", tzinfo=" ++ describeOffset minutes) ++ ")"

def describeItems : List Value → List Text
  | [] => []
  | v :: rest => describe v :: describeItems rest

def describeMembers : List (Text × Value) → List Text
  | [] => []
  | (name, v) :: rest => (name.quoted ++ ": " ++ describe v) :: describeMembers rest

end

end Value
end LintCorpus
