import LintCorpus.Text.Quoted

/-!
What can be wrong with a TOML document. A fault is placed by how much of the document follows it,
and shown with line and column.
-/
namespace LintCorpus.Toml

inductive Cause where
  | invalidStatement
  | expectedNewline
  | declaredTwice (key : List Text)
  | overwritten
  | immutable (key : List Text)
  | redefined (key : List Text)
  | unclosedTable
  | unclosedTableList
  | expectedEquals
  | invalidKey
  | duplicateInline (name : Text)
  | unclosedInline
  | unclosedArray
  | strayBackslash
  | invalidHex
  | notScalar
  | unterminated
  | illegal (c : Nat)
  | invalidCharacter (c : Nat)
  | expected (closing : Text)
  | invalidDate
  | invalidValue
deriving DecidableEq

/-- A cause and how many code points of the document follow its place. -/
structure Fault where
  cause : Cause
  remaining : Nat
deriving DecidableEq

/-- The parts of a key between parentheses; a single part has a comma after it. -/
def describeKey : List Text → Text
  | [part] => "(" ++ part.quoted ++ ",)"
  | key => "(" ++ Text.join ", " (key.map Text.quoted) ++ ")"

def Cause.message : Cause → Text
  | .invalidStatement => "Invalid statement"
  | .expectedNewline => "Expected newline or end of document after a statement"
  | .declaredTwice key => "Cannot declare " ++ describeKey key ++ " twice"
  | .overwritten => "Cannot overwrite a value"
  | .immutable key => "Cannot mutate immutable namespace " ++ describeKey key
  | .redefined key => "Cannot redefine namespace " ++ describeKey key
  | .unclosedTable => "Expected ']' at the end of a table declaration"
  | .unclosedTableList => "Expected ']]' at the end of an array declaration"
  | .expectedEquals => "Expected '=' after a key in a key/value pair"
  | .invalidKey => "Invalid initial character for a key part"
  | .duplicateInline name => "Duplicate inline table key " ++ name.quoted
  | .unclosedInline => "Unclosed inline table"
  | .unclosedArray => "Unclosed array"
  | .strayBackslash => "Unescaped '\\' in a string"
  | .invalidHex => "Invalid hex value"
  | .notScalar => "Escaped character is not a Unicode scalar value"
  | .unterminated => "Unterminated string"
  | .illegal c => "Illegal character " ++ Text.quoted [c]
  | .invalidCharacter c => "Found invalid character " ++ Text.quoted [c]
  | .expected closing => "Expected " ++ closing.quoted
  | .invalidDate => "Invalid date or datetime"
  | .invalidValue => "Invalid value"

def Fault.message (f : Fault) (document : Text) : Text :=
  let place : Text :=
    if f.remaining = 0 then "end of document"
    else
      let before := document.take (document.length - f.remaining)
      let column := (before.reverse.takeWhile (· != 0x0A)).length + 1
      "line " ++ Text.ofNat (before.count 0x0A + 1) ++ ", column " ++ Text.ofNat column
  f.cause.message ++ " (at " ++ place ++ ")"

end LintCorpus.Toml
