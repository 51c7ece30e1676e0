import LintCorpus.Json.Reader
import LintCorpus.Toml.Fault

/-!
Strings of TOML documents, in their four forms. Every reader takes the text from a place on and
gives what it read together with the text that follows.
-/
namespace LintCorpus.Toml

def failAt {α : Type} (cause : Cause) (rest : Text) : Except Fault α :=
  .error ⟨cause, rest.length⟩

def isGap (c : Nat) : Bool := c == 0x20 || c == 0x09

def isGapOrNewline (c : Nat) : Bool := isGap c || c == 0x0A

def skipGap (t : Text) : Text := t.dropWhile isGap

def isControl (c : Nat) : Bool := (c < 0x20 && c != 0x09) || c == 0x7F

/-- The text up to the first occurrence of `closing`, and from it on. -/
def splitBefore (closing : Text) : Text → Option (Text × Text)
  | [] => if closing.isEmpty then some ([], []) else none
  | c :: rest =>
    if closing.isPrefixOf (c :: rest) then some ([], c :: rest)
    else (splitBefore closing rest).map fun (before, found) => (c :: before, found)

def refuse (forbidden : Nat → Bool) (part rest : Text) : Except Fault Unit :=
  match part.dropWhile fun c => !forbidden c with
  | [] => .ok ()
  | c :: after => .error ⟨.invalidCharacter c, (c :: after).length + rest.length⟩

def skipComment : Text → Except Fault Text
  | [] => .ok []
  | c :: rest =>
    if c = '#'.toNat then do
      let comment := rest.takeWhile (· != 0x0A)
      let after := rest.drop comment.length
      refuse isControl comment after
      return after
    else .ok (c :: rest)

def literalUntil (closing : Text) (forbidden : Nat → Bool) (rest : Text) :
    Except Fault (Text × Text) :=
  match splitBefore closing rest with
  | none => failAt (.expected closing) []
  | some (content, found) => do
    refuse forbidden content found
    return (content, found.drop closing.length)

def hexEscape (count : Nat) (rest : Text) : Except Fault (Text × Text) :=
  match (rest.take count).mapM Json.hexValue? with
  | some digits =>
    if digits.length < count then failAt .invalidHex rest
    else
      let value := digits.foldl (fun n d => n * 16 + d) 0
      if Text.isSurrogate value || 0x110000 ≤ value then failAt .notScalar (rest.drop count)
      else .ok ([value], rest.drop count)
  | none => failAt .invalidHex rest

def escaped? (c : Nat) : Option Nat :=
  if c = 'b'.toNat then some 0x08
  else if c = 't'.toNat then some 0x09
  else if c = 'n'.toNat then some 0x0A
  else if c = 'f'.toNat then some 0x0C
  else if c = 'r'.toNat then some 0x0D
  else if c = '"'.toNat || c = '\\'.toNat then some c
  else none

/-- The text after the line break that a backslash takes out, with all blanks after it. -/
def skipBrokenLine (c : Nat) (rest : Text) : Except Fault Text :=
  if c = 0x0A then .ok (rest.dropWhile isGapOrNewline)
  else
    match skipGap rest with
    | [] => .ok []
    | d :: after =>
      if d = 0x0A then .ok (after.dropWhile isGapOrNewline)
      else failAt .strayBackslash (d :: after)

def escape (multiline : Bool) (rest : Text) : Except Fault (Text × Text) :=
  match rest with
  | [] => failAt .strayBackslash []
  | c :: after =>
    if multiline && isGapOrNewline c then do return ([], ← skipBrokenLine c after)
    else if c = 'u'.toNat then hexEscape 4 after
    else if c = 'U'.toNat then hexEscape 8 after
    else match escaped? c with
      | some d => .ok ([d], after)
      | none => failAt .strayBackslash after

/-- A string with escapes; `rest` begins after the opening. Every turn takes a code point, so
`fuel` above the length of `rest` is enough. -/
def basic (multiline : Bool) : Nat → Text → Text → Except Fault (Text × Text)
  | 0, _, rest => failAt .unterminated rest
  | fuel + 1, content, rest =>
    match rest with
    | [] => failAt .unterminated []
    | c :: after =>
      if c = '"'.toNat then
        if !multiline then .ok (content.reverse, after)
        else if rest.startsWith "\"\"\"" then .ok (content.reverse, rest.drop 3)
        else basic multiline fuel (c :: content) after
      else if c = '\\'.toNat then do
        let (denoted, next) ← escape multiline after
        basic multiline fuel (denoted.reverse ++ content) next
      else if isControl c && !(multiline && c == 0x0A) then failAt (.illegal c) rest
      else basic multiline fuel (c :: content) after

/-- Up to two more marks, which belong to the string that ended before them. -/
def extraMarks (mark : Nat) (content rest : Text) : Text × Text :=
  let marks := (rest.takeWhile (· == mark)).take 2
  (content ++ marks, rest.drop marks.length)

def basicLine (fuel : Nat) (rest : Text) : Except Fault (Text × Text) := basic false fuel [] rest

def literalLine (rest : Text) : Except Fault (Text × Text) := literalUntil "'" isControl rest

def dropFirstNewline : Text → Text
  | [] => []
  | c :: rest => if c = 0x0A then rest else c :: rest

def basicBlock (fuel : Nat) (rest : Text) : Except Fault (Text × Text) := do
  let (content, after) ← basic true fuel [] (dropFirstNewline rest)
  return extraMarks '"'.toNat content after

def literalBlock (rest : Text) : Except Fault (Text × Text) := do
  let (content, after) ←
    literalUntil "'''" (fun c => isControl c && c != 0x0A) (dropFirstNewline rest)
  return extraMarks '\''.toNat content after

end LintCorpus.Toml
