import LintCorpus.Value
import LintCorpus.Number.Shortest

/-!
Writing JSON. Names and strings are plain ASCII: everything else is written as numeric escapes,
above the basic plane as a surrogate pair. A value is laid out on one line, or with each item on a
line of its own, indented by two spaces more than its surroundings.

Integers are written however many digits they have. That one of more than `Text.mostDigits` cannot
be is left out: none of those that are written are as large, since none that is read or counted is.
-/
namespace LintCorpus.Json

def unicodeEscape (c : Nat) : Text := "\\u" ++ Text.hex 4 c

def escapeOne (c : Nat) : Text :=
  if c = '"'.toNat || c = '\\'.toNat then ['\\'.toNat, c]
  else if 0x20 ≤ c && c ≤ 0x7E then [c]
  else if c = 0x0A then "\\n"
  else if c = 0x0D then "\\r"
  else if c = 0x09 then "\\t"
  else if c = 0x0C then "\\f"
  else if c = 0x08 then "\\b"
  else if c < 0x10000 then unicodeEscape c
  else unicodeEscape (0xD800 + (c - 0x10000) / 0x400) ++
    unicodeEscape (0xDC00 + (c - 0x10000) % 0x400)

def writeText (t : Text) : Text := "\"" ++ t.flatMap escapeOne ++ "\""

/-- A number; those that are not finite have names. -/
def writeFloat : Binary64 → Text
  | .nan => "NaN"
  | .infinity negative => if negative then "-Infinity" else "Infinity"
  | x => x.toText

inductive Layout where
  | oneLine
  | indented
deriving DecidableEq

namespace Layout

/-- What stands before an item, or before the closing bracket, at a depth. -/
def lineBreak (layout : Layout) (depth : Nat) : Text :=
  match layout with
  | .oneLine => []
  | .indented => 0x0A :: Text.copies (2 * depth) 0x20

def comma : Layout → Text
  | .oneLine => ", "
  | .indented => ","

end Layout

mutual

/-- The text of a value at a depth. A date or time is written as null. -/
def writeAt (layout : Layout) (depth : Nat) : Value → Text
  | .null => "null"
  | .bool b => if b then "true" else "false"
  | .int i => Text.ofInt i
  | .float x => writeFloat x
  | .text t => writeText t
  | .list [] => "[]"
  | .list (item :: items) =>
    "[" ++ layout.lineBreak (depth + 1) ++ writeAt layout (depth + 1) item ++
      writeItems layout (depth + 1) items ++ layout.lineBreak depth ++ "]"
  | .object [] => "\x7b\x7d"
  | .object ((name, v) :: members) =>
    "\x7b" ++ layout.lineBreak (depth + 1) ++ writeText name ++ ": " ++
      writeAt layout (depth + 1) v ++ writeMembers layout (depth + 1) members ++
      layout.lineBreak depth ++ "\x7d"
  | .date _ => "null"
  | .clock _ => "null"
  | .moment _ _ _ => "null"

def writeItems (layout : Layout) (depth : Nat) : List Value → Text
  | [] => []
  | item :: items =>
    layout.comma ++ layout.lineBreak depth ++ writeAt layout depth item ++
      writeItems layout depth items

def writeMembers (layout : Layout) (depth : Nat) : List (Text × Value) → Text
  | [] => []
  | (name, v) :: members =>
    layout.comma ++ layout.lineBreak depth ++ writeText name ++ ": " ++ writeAt layout depth v ++
      writeMembers layout depth members

end

def write (layout : Layout) (v : Value) : Text := writeAt layout 0 v

end LintCorpus.Json
