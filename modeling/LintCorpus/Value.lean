import LintCorpus.Dict
import LintCorpus.Number.Binary64

/-!
The values that JSON texts and TOML documents denote, before anything is known about their shape.
-/
namespace LintCorpus

structure Date where
  year : Nat
  month : Nat
  day : Nat
deriving DecidableEq, Repr

structure Clock where
  hour : Nat
  minute : Nat
  second : Nat
  microsecond : Nat
deriving DecidableEq, Repr

/-- A value of a document. Objects list their members in order, with distinct names. -/
inductive Value where
  | null
  | bool (b : Bool)
  | int (i : Int)
  | float (x : Binary64)
  | text (t : Text)
  | list (items : List Value)
  | object (members : List (Text × Value))
  | date (d : Date)
  | clock (c : Clock)
  | moment (d : Date) (c : Clock) (offset : Option Int)
deriving Inhabited

namespace Value

/-- The object with these members; of a repeated name the first place and the last value count. -/
def ofMembers (members : List (Text × Value)) : Value := .object (Dict.ofList members).entries

def members? : Value → Option (List (Text × Value))
  | .object members => some members
  | _ => none

def member? (v : Value) (name : Text) : Option Value := v.members?.bind (·.lookup name)

def ofText? (t : Option Text) : Value := t.elim .null .text

def ofInt? (i : Option Int) : Value := i.elim .null .int

def ofTexts (ts : List Text) : Value := .list (ts.map .text)

def ofNat (n : Nat) : Value := .int n

end Value
end LintCorpus
