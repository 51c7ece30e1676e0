import LintCorpus.Value

/-!
Reading JSON one code point at a time. The reader keeps the open arrays and objects on a stack and
knows what may come next, so nothing is read twice and depth costs no recursion. Not-a-number and
the infinities have names; a string may hold lone surrogates but no raw control character.
-/
namespace LintCorpus.Json

inductive Cause where
  | byteOrderMark
  | expectedValue
  | expectedName
  | expectedColon
  | expectedComma
  | extraData
  | unterminatedString
  | controlCharacter
  | invalidEscape
  | invalidUnicodeEscape
deriving DecidableEq, Repr

/-- A cause and the place of the code point that shows it. -/
structure SyntaxError where
  cause : Cause
  position : Nat
deriving DecidableEq, Repr

/-- An open array with its items, newest first, or an open object with its members, newest first,
and the name whose value is due. -/
inductive Frame where
  | array (items : List Value)
  | object (members : List (Text × Value)) (name : Text)

/-- Where in a string the reader is. `unicode` is the place of the `u` of a numeric escape that
has just ended; `joins` says that it denoted the first half of a surrogate pair. -/
inductive StringMode where
  | plain (unicode : Option Nat)
  | backslash (joins : Bool)
  | hex (joins : Bool) (place count value : Nat)

structure StringState where
  start : Nat
  isName : Bool
  content : Text
  mode : StringMode

inductive NumberMode where
  | sign
  | zero
  | integer
  | point
  | fraction
  | mark
  | markSign
  | exponent
deriving DecidableEq

/-- A number begun at `start`: its digits so far as one integer, how many follow the point, and
its exponent. `stop` is where the number ends if a point or exponent mark leads nowhere. -/
structure NumberState where
  start : Nat
  mode : NumberMode
  negative : Bool
  digits : Nat
  scale : Nat
  exponentNegative : Bool
  exponent : Nat
  stop : Nat

inductive Phase where
  | value (canClose : Bool)
  | name (canClose : Bool)
  | colon
  | afterValue
  | string (s : StringState)
  | number (n : NumberState)
  | literal (start : Nat) (rest : Text) (value : Value)

structure Reader where
  position : Nat := 0
  stack : List Frame := []
  phase : Phase := .value false
  result : Value := .null

def isSpace (c : Nat) : Bool := c == 0x20 || c == 0x09 || c == 0x0A || c == 0x0D

def hexValue? (c : Nat) : Option Nat :=
  if 0x30 ≤ c && c ≤ 0x39 then some (c - 0x30)
  else if 0x41 ≤ c && c ≤ 0x46 then some (c - 0x37)
  else if 0x61 ≤ c && c ≤ 0x66 then some (c - 0x57)
  else none

def isHighSurrogate (c : Nat) : Bool := 0xD800 ≤ c && c ≤ 0xDBFF

def isLowSurrogate (c : Nat) : Bool := 0xDC00 ≤ c && c ≤ 0xDFFF

def escaped? (c : Nat) : Option Nat :=
  if c = '"'.toNat || c = '\\'.toNat || c = '/'.toNat then some c
  else if c = 'b'.toNat then some 0x08
  else if c = 'f'.toNat then some 0x0C
  else if c = 'n'.toNat then some 0x0A
  else if c = 'r'.toNat then some 0x0D
  else if c = 't'.toNat then some 0x09
  else none

namespace StringState

/-- The string with the code point of a numeric escape; a low half joins the high half before it. -/
def push (s : StringState) (joins : Bool) (place value : Nat) : StringState :=
  let content :=
    match s.content with
    | high :: rest =>
      if joins && isLowSurrogate value then
        (0x10000 + (high - 0xD800) * 0x400 + (value - 0xDC00)) :: rest
      else value :: s.content
    | [] => [value]
  { s with content, mode := .plain (some place) }

/-- Whether a numeric escape that denotes a high half has just ended. -/
def joins (s : StringState) (unicode : Option Nat) : Bool :=
  unicode.isSome && s.content.head?.any isHighSurrogate

end StringState

namespace NumberState

/-- The value of a complete number: an integer unless it has a fraction or an exponent. -/
def value (n : NumberState) : Value :=
  let exponent : Int := if n.exponentNegative then -(n.exponent : Int) else n.exponent
  match n.mode with
  | .fraction | .exponent => .float (Binary64.ofDecimal n.negative n.digits (exponent - n.scale))
  | _ => .int (if n.negative then -(n.digits : Int) else n.digits)

def digit (n : NumberState) (d : Nat) (mode : NumberMode) : NumberState :=
  { n with mode, digits := n.digits * 10 + d }

def extend? (n : NumberState) (position c : Nat) : Option NumberState :=
  let digit? := if 0x30 ≤ c && c ≤ 0x39 then some (c - 0x30) else none
  let mark? : Option NumberState :=
    if c = 'e'.toNat || c = 'E'.toNat then some { n with mode := .mark, stop := position } else none
  let fractional? : Option NumberState :=
    if c = '.'.toNat then some { n with mode := .point, stop := position } else mark?
  match n.mode, digit? with
  | .sign, some 0 => some { n with mode := .zero }
  | .sign, some d => some (n.digit d .integer)
  | .sign, none => none
  | .zero, _ => fractional?
  | .integer, some d => some (n.digit d .integer)
  | .integer, none => fractional?
  | .point, some d => some { n.digit d .fraction with scale := 1 }
  | .point, none => none
  | .fraction, some d => some { n.digit d .fraction with scale := n.scale + 1 }
  | .fraction, none => mark?
  | .mark, some d => some { n with mode := .exponent, exponent := d }
  | .mark, none =>
    if c = '+'.toNat then some { n with mode := .markSign }
    else if c = '-'.toNat then some { n with mode := .markSign, exponentNegative := true }
    else none
  | .markSign, some d => some { n with mode := .exponent, exponent := d }
  | .markSign, none => none
  | .exponent, some d => some { n with exponent := n.exponent * 10 + d }
  | .exponent, none => none

end NumberState

namespace Reader

def advance (r : Reader) (phase : Phase) : Reader :=
  { r with position := r.position + 1, phase }

/-- The reader with a complete value, which goes into the innermost open array or object. -/
def complete (r : Reader) (v : Value) : Reader :=
  match r.stack with
  | [] => { r with phase := .afterValue, result := v }
  | .array items :: rest => { r with phase := .afterValue, stack := .array (v :: items) :: rest }
  | .object members name :: rest =>
    { r with phase := .afterValue, stack := .object ((name, v) :: members) name :: rest }

def afterValueError (r : Reader) (position : Nat) : SyntaxError :=
  ⟨if r.stack.isEmpty then .extraData else .expectedComma, position⟩

def close (r : Reader) : Reader :=
  match r.stack with
  | [] => r
  | .array items :: rest => complete { r with stack := rest } (.list items.reverse)
  | .object members _ :: rest => complete { r with stack := rest } (.ofMembers members.reverse)

def stepAfterValue (r : Reader) (c : Nat) : Except SyntaxError Reader :=
  if isSpace c then .ok (r.advance .afterValue)
  else match r.stack with
    | .array _ :: _ =>
      if c = ','.toNat then .ok (r.advance (.value false))
      else if c = ']'.toNat then .ok { r.close with position := r.position + 1 }
      else .error (r.afterValueError r.position)
    | .object _ _ :: _ =>
      if c = ','.toNat then .ok (r.advance (.name false))
      else if c = '\x7d'.toNat then .ok { r.close with position := r.position + 1 }
      else .error (r.afterValueError r.position)
    | [] => .error (r.afterValueError r.position)

def stepValue (r : Reader) (canClose : Bool) (c : Nat) : Except SyntaxError Reader :=
  let start := r.position
  let number (mode : NumberMode) (negative : Bool) (digits : Nat) : Reader :=
    r.advance (.number ⟨start, mode, negative, digits, 0, false, 0, start⟩)
  let literal (rest : String) (value : Value) : Reader := r.advance (.literal start rest value)
  if isSpace c then .ok (r.advance (.value canClose))
  else if c = ']'.toNat && canClose then .ok { r.close with position := r.position + 1 }
  else if c = '"'.toNat then .ok (r.advance (.string ⟨start, false, [], .plain none⟩))
  else if c = '\x7b'.toNat then
    .ok { r.advance (.name true) with stack := .object [] [] :: r.stack }
  else if c = '['.toNat then .ok { r.advance (.value true) with stack := .array [] :: r.stack }
  else if c = '-'.toNat then .ok (number .sign true 0)
  else if c = '0'.toNat then .ok (number .zero false 0)
  else if 0x31 ≤ c && c ≤ 0x39 then .ok (number .integer false (c - 0x30))
  else if c = 'n'.toNat then .ok (literal "ull" .null)
  else if c = 't'.toNat then .ok (literal "rue" (.bool true))
  else if c = 'f'.toNat then .ok (literal "alse" (.bool false))
  else if c = 'N'.toNat then .ok (literal "aN" (.float .nan))
  else if c = 'I'.toNat then .ok (literal "nfinity" (.float (.infinity false)))
  else .error ⟨.expectedValue, start⟩

def stepName (r : Reader) (canClose : Bool) (c : Nat) : Except SyntaxError Reader :=
  if isSpace c then .ok (r.advance (.name canClose))
  else if c = '"'.toNat then .ok (r.advance (.string ⟨r.position, true, [], .plain none⟩))
  else if c = '\x7d'.toNat && canClose then .ok { r.close with position := r.position + 1 }
  else .error ⟨.expectedName, r.position⟩

def stepColon (r : Reader) (c : Nat) : Except SyntaxError Reader :=
  if isSpace c then .ok (r.advance .colon)
  else if c = ':'.toNat then .ok (r.advance (.value false))
  else .error ⟨.expectedColon, r.position⟩

/-- Ends a string: a name is kept for the value to come, any other string is a value. -/
def finishString (r : Reader) (s : StringState) : Reader :=
  let t := s.content.reverse
  if s.isName then
    match r.stack with
    | .object members _ :: rest => { r with phase := .colon, stack := .object members t :: rest }
    | _ => { r with phase := .colon }
  else r.complete (.text t)

def stepString (r : Reader) (s : StringState) (c : Nat) : Except SyntaxError Reader :=
  match s.mode with
  | .plain unicode =>
    if c = '"'.toNat then .ok { r.finishString s with position := r.position + 1 }
    else if c = '\\'.toNat then
      .ok (r.advance (.string { s with mode := .backslash (s.joins unicode) }))
    else if c < 0x20 then .error ⟨.controlCharacter, r.position⟩
    else .ok (r.advance (.string { s with content := c :: s.content, mode := .plain none }))
  | .backslash joins =>
    if c = 'u'.toNat then .ok (r.advance (.string { s with mode := .hex joins r.position 0 0 }))
    else
      match escaped? c with
      | some d =>
        .ok (r.advance (.string { s with content := d :: s.content, mode := .plain none }))
      | none => .error ⟨.invalidEscape, r.position - 1⟩
  | .hex joins place count value =>
    match hexValue? c with
    | none => .error ⟨.invalidUnicodeEscape, place⟩
    | some d =>
      let value := value * 16 + d
      if count < 3 then
        .ok (r.advance (.string { s with mode := .hex joins place (count + 1) value }))
      else .ok (r.advance (.string (s.push joins place value)))

def stepNumber (r : Reader) (n : NumberState) (c : Nat) : Except SyntaxError Reader :=
  match n.extend? r.position c with
  | some n => .ok (r.advance (.number n))
  | none =>
    match n.mode with
    | .sign =>
      if c = 'I'.toNat then
        .ok (r.advance (.literal n.start "nfinity" (.float (.infinity true))))
      else .error ⟨.expectedValue, n.start⟩
    | .point | .mark | .markSign => .error (r.afterValueError n.stop)
    | _ => (r.complete n.value).stepAfterValue c

def stepLiteral (r : Reader) (start : Nat) (rest : Text) (value : Value) (c : Nat) :
    Except SyntaxError Reader :=
  match rest with
  | [last] =>
    if c = last then .ok { r.complete value with position := r.position + 1 }
    else .error ⟨.expectedValue, start⟩
  | next :: rest =>
    if c = next then .ok (r.advance (.literal start rest value))
    else .error ⟨.expectedValue, start⟩
  | [] => .error ⟨.expectedValue, start⟩

def step (r : Reader) (c : Nat) : Except SyntaxError Reader :=
  match r.phase with
  | .value canClose => r.stepValue canClose c
  | .name canClose => r.stepName canClose c
  | .colon => r.stepColon c
  | .afterValue => r.stepAfterValue c
  | .string s => r.stepString s c
  | .number n => r.stepNumber n c
  | .literal start rest value => r.stepLiteral start rest value c

def finish (r : Reader) : Except SyntaxError Value :=
  let settled (r : Reader) (position : Nat) : Except SyntaxError Value :=
    if r.stack.isEmpty then .ok r.result else .error (r.afterValueError position)
  match r.phase with
  | .value _ => .error ⟨.expectedValue, r.position⟩
  | .name _ => .error ⟨.expectedName, r.position⟩
  | .colon => .error ⟨.expectedColon, r.position⟩
  | .afterValue => settled r r.position
  | .string s =>
    match s.mode with
    | .plain (some place) => .error ⟨.invalidUnicodeEscape, place⟩
    | .hex _ place _ _ => .error ⟨.invalidUnicodeEscape, place⟩
    | _ => .error ⟨.unterminatedString, s.start⟩
  | .number n =>
    match n.mode with
    | .sign => .error ⟨.expectedValue, n.start⟩
    | .point | .mark | .markSign => .error (r.afterValueError n.stop)
    | _ => settled (r.complete n.value) r.position
  | .literal start _ _ => .error ⟨.expectedValue, start⟩

end Reader

/-- The value that a text denotes, however many digits its integers have and however deep it is
nested; `load` keeps limits on both. -/
def read (t : Text) : Except SyntaxError Value :=
  if t.head? = some 0xFEFF then .error ⟨.byteOrderMark, 0⟩
  else t.foldlM Reader.step {} >>= Reader.finish

def Cause.message : Cause → Text
  | .byteOrderMark => "Unexpected UTF-8 BOM (decode using utf-8-sig)"
  | .expectedValue => "Expecting value"
  | .expectedName => "Expecting property name enclosed in double quotes"
  | .expectedColon => "Expecting ':' delimiter"
  | .expectedComma => "Expecting ',' delimiter"
  | .extraData => "Extra data"
  | .unterminatedString => "Unterminated string starting at"
  | .controlCharacter => "Invalid control character at"
  | .invalidEscape => "Invalid \\escape"
  | .invalidUnicodeEscape => "Invalid \\uXXXX escape"

def SyntaxError.message (e : SyntaxError) (t : Text) : Text :=
  let before := t.take e.position
  let line := before.count 0x0A + 1
  let column := (before.reverse.takeWhile (· != 0x0A)).length + 1
  e.cause.message ++ ": line " ++ Text.ofNat line ++ " column " ++ Text.ofNat column ++
    " (char " ++ Text.ofNat e.position ++ ")"

end LintCorpus.Json
