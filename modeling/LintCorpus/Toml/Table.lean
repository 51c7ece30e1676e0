import LintCorpus.Toml.Fault
import LintCorpus.Value.Loose

/-!
Tables that grow statement by statement, and what may still be added where. A table given by its
own header, or on the way to a dotted key, cannot be given again; arrays and inline tables cannot
be added to at all.
-/
namespace LintCorpus.Toml

abbrev Key := List Text

/-- Changes the table that `key` leads to. Missing tables on the way are made; of a list of tables
the last one counts if `throughLists` is set. None when something else is on the way. -/
def changeAt (throughLists : Bool) (change : Members → Option Members) :
    Key → Members → Option Members
  | [], table => change table
  | name :: key, table =>
    match table.lookup name with
    | none => do
      let inner ← changeAt throughLists change key []
      return Dict.put name (.object inner) table
    | some (.object inner) => do
      let inner ← changeAt throughLists change key inner
      return Dict.put name (.object inner) table
    | some (.list items) =>
      if throughLists then
        match items.getLast? with
        | some (.object inner) => do
          let inner ← changeAt throughLists change key inner
          return Dict.put name (.list (items.dropLast ++ [.object inner])) table
        | _ => none
      else none
    | some _ => none

/-- A document in the making: its tables, the keys that cannot be given as headers any more, those
that will not be from the next header on, the keys that cannot be added to, and the header. -/
structure Document where
  tables : Members := []
  explicit : List Key := []
  pending : List Key := []
  frozen : List Key := []
  header : Key := []

def isFrozen (frozen : List Key) (key : Key) : Bool := frozen.any fun f => f.isPrefixOf key

namespace Document

/-- Makes the keys on the way to dotted keys final. -/
def settle (d : Document) : Document :=
  { d with explicit := d.pending ++ d.explicit, pending := [] }

def declare (d : Document) (key : Key) : Except Cause Document :=
  if d.explicit.contains key || isFrozen d.frozen key then .error (.declaredTwice key)
  else
    match changeAt true some key d.tables with
    | none => .error .overwritten
    | some tables => .ok { d with tables, explicit := key :: d.explicit, header := key }

def appendTo (name : Text) (table : Members) : Option Members :=
  match table.lookup name with
  | none => some (Dict.put name (.list [.object []]) table)
  | some (.list items) => some (Dict.put name (.list (items ++ [.object []])) table)
  | some _ => none

/-- Adds a table to the list `key`; what was said about keys inside it concerns the table before. -/
def append (d : Document) (key : Key) : Except Cause Document :=
  if isFrozen d.frozen key then .error (.immutable key)
  else
    let outside (k : Key) : Bool := !key.isPrefixOf k
    match changeAt true (appendTo (key.getLast?.getD [])) key.dropLast d.tables with
    | none => .error .overwritten
    | some tables => .ok { d with
        tables
        explicit := key :: d.explicit.filter outside
        frozen := d.frozen.filter outside
        header := key }

def addMember (name : Text) (v : Value) (table : Members) : Option Members :=
  if table.has name then none else some (Dict.put name v table)

def isNested : Value → Bool
  | .object _ | .list _ => true
  | _ => false

/-- The proper beginnings of a key, shortest first, without the empty one. -/
def properPrefixes (key : Key) : List Key :=
  (List.range (key.length - 1)).map fun n => key.take (n + 1)

def assign (d : Document) (key : Key) (v : Value) : Except Cause Document :=
  let ways := (properPrefixes key).map (d.header ++ ·)
  let parent := d.header ++ key.dropLast
  match ways.find? d.explicit.contains with
  | some way => .error (.redefined way)
  | none =>
    if isFrozen d.frozen parent then .error (.immutable parent)
    else
      match changeAt true (addMember (key.getLast?.getD []) v) parent d.tables with
      | none => .error .overwritten
      | some tables => .ok { d with
          tables
          pending := ways ++ d.pending
          frozen := if isNested v then (d.header ++ key) :: d.frozen else d.frozen }

end Document

/-- An inline table in the making, and the keys in it that cannot be added to. -/
structure Inline where
  table : Members := []
  frozen : List Key := []

namespace Inline

def assign (t : Inline) (key : Key) (v : Value) : Except Cause Inline :=
  let name := key.getLast?.getD []
  if isFrozen t.frozen key then .error (.immutable key)
  else
    match changeAt false some key.dropLast t.table with
    | none => .error .overwritten
    | some _ =>
      match changeAt false (Document.addMember name v) key.dropLast t.table with
      | none => .error (.duplicateInline name)
      | some table =>
        .ok { table, frozen := if Document.isNested v then key :: t.frozen else t.frozen }

end Inline
end LintCorpus.Toml
