import LintCorpus.Number.Numeral
import LintCorpus.Path
import LintCorpus.Schema.Basic

/-!
Lenient checks of numbers, truth values and paths. A number may be given as text or as a number of
another kind when nothing is lost; a truth value may be given as one of a few words.
-/
namespace LintCorpus.Schema

/-- The text without its low lines. They may stand anywhere but at its ends and side by side. -/
def dropLowLines? (t : Text) : Option Text :=
  let low := '_'.toNat
  if t.head? == some low || t.getLast? == some low || t.includes "__" then none
  else some (t.filter (· != low))

def isZeroFraction (t : Text) : Bool := t.isEmpty || (t.length ≥ 2 && t.tail.all (· == '0'.toNat))

def isLeadingDigit (c : Nat) : Bool := Text.isPlainDigit c && c != '0'.toNat

/-- What follows zeros and low lines, `last` being the latest of them. A sign may come after them;
before a point, or when nothing follows, the latest one stays. -/
def afterZeros? (last : Nat) : Text → Option Text
  | [] => some [last]
  | c :: rest =>
    if c = '0'.toNat ∨ c = '_'.toNat then afterZeros? c rest
    else if isLeadingDigit c ∨ c = '-'.toNat then some (c :: rest)
    else if c = '.'.toNat then some (last :: c :: rest)
    else none

def dropZeros? : Text → Option Text
  | [] => none
  | c :: rest =>
    if isLeadingDigit c then some (c :: rest)
    else if c = '0'.toNat then afterZeros? c rest
    else none

def natOfDigits? (t : Text) : Option Nat :=
  if t = "0" || t.head?.any isLeadingDigit then
    (t.mapM Text.plainDigit?).map Text.ofDigitValues
  else none

/-- An integer in text: padding around it, a sign in front or after leading zeros, digits with
single low lines, and at most zeros after a point. -/
def intOfText? (t : Text) : Option Int := do
  let (negative, body) := Text.splitSign t.unpad
  let kept ← dropZeros? body
  let whole := kept.takeWhile (· != '.'.toNat)
  if isZeroFraction (kept.drop whole.length) then
    let digits ← dropLowLines? whole
    if digits.startsWith "-" then
      if negative then none else (natOfDigits? digits.tail).map fun n => -(n : Int)
    else (natOfDigits? digits).map fun n => if negative then -(n : Int) else n
  else none

def wordBound : Int := Nat.pow 2 63

/-- The integer that a number is, when it is whole and of at most 63 bits. -/
def intOfFloat (x : Binary64) : Checked Int :=
  match x.toInt? with
  | some i => if -wordBound < i ∧ i < wordBound then .valid i else .fail .intTooLarge
  | none => .fail (if x.isFinite then .intFractional else .notFinite)

def int : Check Int
  | .int i => .valid i
  | .bool b => .valid (if b then 1 else 0)
  | .float x => intOfFloat x
  | .text t => t |> reading fun t =>
    match intOfText? t with
    | some i => .valid i
    | none => .fail .intUnreadable
  | _ => .fail .intExpected

/-- A number in text: with padding around it, or else with single low lines inside. -/
def floatOfText? (t : Text) : Option Binary64 :=
  (Binary64.ofNumeral? t.unpad).or ((dropLowLines? t).bind Binary64.ofNumeral?)

def float : Check Binary64
  | .float x => .valid x
  | .int i =>
    match Binary64.ofInt i with
    | .infinity _ => .fail .floatExpected
    | x => .valid x
  | .bool b => .valid (Binary64.ofInt (if b then 1 else 0))
  | .text t => t |> reading fun t =>
    match floatOfText? t with
    | some x => .valid x
    | none => .fail .floatUnreadable
  | _ => .fail .floatExpected

def falseWords : List Text := ["0", "off", "f", "false", "n", "no"]

def trueWords : List Text := ["1", "on", "t", "true", "y", "yes"]

def boolOfInt (i : Int) : Checked Bool :=
  if i = 0 then .valid false else if i = 1 then .valid true else .fail .boolUnreadable

def bool : Check Bool
  | .bool b => .valid b
  | .int i => if -wordBound ≤ i ∧ i < wordBound then boolOfInt i else .fail .boolExpected
  | .float x =>
    match intOfFloat x with
    | .valid i => boolOfInt i
    | .invalid _ => .fail .boolExpected
  | .text t => t |> reading fun t =>
    let word := t.foldCase
    if falseWords.contains word then .valid false
    else if trueWords.contains word then .valid true
    else .fail .boolUnreadable
  | _ => .fail .boolExpected

def path : Check Path
  | .text t => .valid (Path.ofText t)
  | _ => .fail .pathExpected

end LintCorpus.Schema
