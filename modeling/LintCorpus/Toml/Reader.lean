import LintCorpus.Toml.Scalar
import LintCorpus.Toml.Table

/-!
Reading TOML documents, one statement after the other. Where a reader takes `fuel`, more of it than
there are code points left is enough, unless something else is said.

Left out are the limits beyond which reading is given up with neither a document nor a fault: more
than `Text.mostDigits` digits in an integer, and arrays or tables nested too deep for the stack.
-/
namespace LintCorpus.Toml

def isBareKey (c : Nat) : Bool :=
  (0x30 ≤ c && c ≤ 0x39) || (0x41 ≤ c && c ≤ 0x5A) || (0x61 ≤ c && c ≤ 0x7A) ||
    c == '-'.toNat || c == '_'.toNat

def beginsKey (c : Nat) : Bool := isBareKey c || c == '"'.toNat || c == '\''.toNat

def keyPart (fuel : Nat) (rest : Text) : Except Fault (Text × Text) :=
  match rest with
  | [] => failAt .invalidKey []
  | c :: after =>
    if isBareKey c then .ok (rest.takeWhile isBareKey, rest.dropWhile isBareKey)
    else if c = '\''.toNat then literalLine after
    else if c = '"'.toNat then basicLine fuel after
    else failAt .invalidKey rest

def keyParts : Nat → Key → Text → Except Fault (Key × Text)
  | 0, key, rest => .ok (key, rest)
  | fuel + 1, key, rest =>
    match rest with
    | c :: after =>
      if c = '.'.toNat then do
        let (part, next) ← keyPart fuel (skipGap after)
        keyParts fuel (key ++ [part]) (skipGap next)
      else .ok (key, rest)
    | [] => .ok (key, [])

def key (fuel : Nat) (rest : Text) : Except Fault (Key × Text) := do
  let (part, next) ← keyPart fuel rest
  keyParts fuel [part] (skipGap next)

def keyOfPair (fuel : Nat) (rest : Text) : Except Fault (Key × Text) := do
  let (k, next) ← key fuel rest
  match next with
  | c :: after => if c = '='.toNat then return (k, skipGap after) else failAt .expectedEquals next
  | [] => failAt .expectedEquals []

/-- The text after blanks, line feeds and comments; `inComment` says that a comment has begun. -/
def skipBetweenItems (inComment : Bool) : Text → Except Fault Text
  | [] => .ok []
  | c :: rest =>
    if inComment && c != 0x0A then
      if isControl c then failAt (.invalidCharacter c) (c :: rest) else skipBetweenItems true rest
    else if isGapOrNewline c then skipBetweenItems false rest
    else if c = '#'.toNat then skipBetweenItems true rest
    else .ok (c :: rest)

def nextItem (rest : Text) : Except Fault Text := skipBetweenItems false rest

def raise {α : Type} (rest : Text) (result : Except Cause α) : Except Fault α :=
  result.mapError fun cause => ⟨cause, rest.length⟩

mutual

/-- A value. Two nested calls take at least one code point, so `fuel` above twice the length of
`rest` is enough. -/
def value : Nat → Text → Except Fault (Value × Text)
  | 0, rest => failAt .invalidValue rest
  | fuel + 1, rest =>
    match rest with
    | [] => failAt .invalidValue []
    | c :: after =>
      if c = '"'.toNat then do
        let (t, next) ←
          if rest.startsWith "\"\"\"" then basicBlock fuel (rest.drop 3) else basicLine fuel after
        return (.text t, next)
      else if c = '\''.toNat then do
        let (t, next) ←
          if rest.startsWith "'''" then literalBlock (rest.drop 3) else literalLine after
        return (.text t, next)
      else if rest.startsWith "true" then .ok (.bool true, rest.drop 4)
      else if rest.startsWith "false" then .ok (.bool false, rest.drop 5)
      else if c = '['.toNat then do
        let next ← nextItem after
        if next.startsWith "]" then return (.list [], next.drop 1)
        else arrayItems fuel [] next
      else if c = '\x7b'.toNat then
        let next := skipGap after
        if next.startsWith "\x7d" then .ok (.object [], next.drop 1)
        else inlinePairs fuel {} next
      else scalar rest

def arrayItems : Nat → List Value → Text → Except Fault (Value × Text)
  | 0, _, rest => failAt .unclosedArray rest
  | fuel + 1, items, rest => do
    let (v, next) ← value fuel rest
    match ← nextItem next with
    | [] => failAt .unclosedArray []
    | c :: after =>
      if c = ']'.toNat then return (.list (v :: items).reverse, after)
      else if c = ','.toNat then
        let following ← nextItem after
        if following.startsWith "]" then return (.list (v :: items).reverse, following.drop 1)
        else arrayItems fuel (v :: items) following
      else failAt .unclosedArray (c :: after)

def inlinePairs : Nat → Inline → Text → Except Fault (Value × Text)
  | 0, _, rest => failAt .unclosedInline rest
  | fuel + 1, table, rest => do
    let (k, start) ← keyOfPair fuel rest
    let (v, next) ← value fuel start
    let table ← raise next (table.assign k v)
    match skipGap next with
    | [] => failAt .unclosedInline []
    | c :: after =>
      if c = '\x7d'.toNat then return (.object table.table, after)
      else if c = ','.toNat then inlinePairs fuel table (skipGap after)
      else failAt .unclosedInline (c :: after)

end

def pairStatement (fuel : Nat) (d : Document) (rest : Text) : Except Fault (Document × Text) := do
  let (k, start) ← keyOfPair fuel rest
  let (v, next) ← value (2 * fuel) start
  return (← raise next (d.assign k v), next)

def headerStatement (fuel : Nat) (d : Document) (rest : Text) :
    Except Fault (Document × Text) := do
  let d := d.settle
  if rest.startsWith "[[" then
    let (k, next) ← key fuel (skipGap (rest.drop 2))
    let d ← raise next (d.append k)
    if next.startsWith "]]" then return (d, next.drop 2) else failAt .unclosedTableList next
  else
    let (k, next) ← key fuel (skipGap (rest.drop 1))
    let d ← raise next (d.declare k)
    if next.startsWith "]" then return (d, next.drop 1) else failAt .unclosedTable next

def statement (fuel : Nat) (d : Document) (c : Nat) (rest : Text) :
    Except Fault (Document × Text) :=
  if beginsKey c then pairStatement fuel d rest
  else if c = '['.toNat then headerStatement fuel d rest
  else if c = '#'.toNat then .ok (d, rest)
  else failAt .invalidStatement rest

def statements : Nat → Document → Text → Except Fault Document
  | 0, d, _ => .ok d
  | fuel + 1, d, rest =>
    match skipGap rest with
    | [] => .ok d
    | c :: after =>
      if c = 0x0A then statements fuel d after
      else do
        let (d, next) ← statement (fuel + 1) d c (c :: after)
        match ← skipComment (skipGap next) with
        | [] => return d
        | e :: following =>
          if e = 0x0A then statements fuel d following
          else failAt .expectedNewline (e :: following)

/-- The document with every carriage return dropped that stands before a line feed. -/
def joinReturns : Text → Text
  | [] => []
  | [c] => [c]
  | c :: next :: rest =>
    if c = 0x0D && next = 0x0A then joinReturns (next :: rest) else c :: joinReturns (next :: rest)

structure DocumentFault where
  fault : Fault
  document : Text
deriving DecidableEq

def DocumentFault.message (f : DocumentFault) : Text := f.fault.message f.document

def read (t : Text) : Except DocumentFault Members :=
  let document := joinReturns t
  match statements (document.length + 1) {} document with
  | .ok d => .ok d.tables
  | .error fault => .error ⟨fault, document⟩

end LintCorpus.Toml
