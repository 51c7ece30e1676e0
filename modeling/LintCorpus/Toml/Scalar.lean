import LintCorpus.Toml.Text
import LintCorpus.Value

/-!
Numbers, dates and times of TOML documents. Each reader takes the longest beginning that has the
form in question, so what follows is judged by the statement it stands in.
-/
namespace LintCorpus.Toml

/-- Digits with single low lines between them: their values and the text that follows. -/
def digitRun (value? : Nat → Option Nat) : Text → List Nat × Text
  | [] => ([], [])
  | [c] =>
    match value? c with
    | some d => ([d], [])
    | none => ([], [c])
  | c :: next :: rest =>
    match value? c with
    | none => ([], c :: next :: rest)
    | some d =>
      if next = '_'.toNat then
        let (ds, after) := digitRun value? rest
        if ds.isEmpty then ([d], next :: rest) else (d :: ds, after)
      else
        let (ds, after) := digitRun value? (next :: rest)
        (d :: ds, after)

def decimalDigit? (c : Nat) : Option Nat :=
  if 0x30 ≤ c && c ≤ 0x39 then some (c - 0x30) else none

def digitBelow? (base c : Nat) : Option Nat := (Json.hexValue? c).filter (· < base)

def inBase (base : Nat) (digits : List Nat) : Nat := digits.foldl (fun n d => n * base + d) 0

def basedInteger? (rest : Text) : Option (Value × Text) :=
  let attempt (mark : Char) (base : Nat) : Option (Value × Text) :=
    match rest with
    | z :: m :: after =>
      if z = '0'.toNat && m = mark.toNat then
        let (digits, next) := digitRun (digitBelow? base) after
        if digits.isEmpty then none else some (.int (inBase base digits), next)
      else none
    | _ => none
  (attempt 'x' 16).or ((attempt 'b' 2).or (attempt 'o' 8))

def sign (rest : Text) : Bool × Text :=
  match rest with
  | c :: after =>
    if c = '-'.toNat then (true, after) else if c = '+'.toNat then (false, after) else (false, rest)
  | [] => (false, [])

def fraction? (rest : Text) : Option (List Nat × Text) :=
  match rest with
  | c :: after =>
    if c = '.'.toNat then
      let (digits, next) := digitRun decimalDigit? after
      if digits.isEmpty then none else some (digits, next)
    else none
  | [] => none

def exponent? (rest : Text) : Option (Int × Text) :=
  match rest with
  | c :: after =>
    if c = 'e'.toNat || c = 'E'.toNat then
      let (negative, body) := sign after
      let (digits, next) := digitRun decimalDigit? body
      let size : Int := inBase 10 digits
      if digits.isEmpty then none else some (if negative then -size else size, next)
    else none
  | [] => none

def integerPart? (rest : Text) : Option (List Nat × Text) :=
  match rest with
  | c :: after =>
    if c = '0'.toNat then some ([0], after)
    else
      let (digits, next) := digitRun decimalDigit? rest
      if digits.isEmpty then none else some (digits, next)
  | [] => none

def decimal? (rest : Text) : Option (Value × Text) := do
  let (negative, body) := sign rest
  let (whole, afterWhole) ← integerPart? body
  let (part, afterPart) := (fraction? afterWhole).getD ([], afterWhole)
  let power := exponent? afterPart
  if part.isEmpty && power.isNone then
    let n : Int := inBase 10 whole
    return (.int (if negative then -n else n), afterWhole)
  else
    let (size, next) := power.getD (0, afterPart)
    return (.float (Binary64.ofDecimal negative (inBase 10 (whole ++ part)) (size - part.length)),
      next)

def number? (rest : Text) : Option (Value × Text) := (basedInteger? rest).or (decimal? rest)

def special? (rest : Text) : Option (Value × Text) :=
  let (negative, body) := sign rest
  if body.startsWith "inf" then some (.float (.infinity negative), body.drop 3)
  else if body.startsWith "nan" then some (.float .nan, body.drop 3)
  else none

def fixedDigits? (count : Nat) (rest : Text) : Option (Nat × Text) := do
  let digits ← (rest.take count).mapM decimalDigit?
  if digits.length < count then none else some (inBase 10 digits, rest.drop count)

def after? (c : Char) (rest : Text) : Option Text :=
  match rest with
  | d :: next => if d = c.toNat then some next else none
  | [] => none

/-- The parts of a second: up to six digits count, the others are passed over. -/
def microseconds (rest : Text) : Nat × Text :=
  match fractionDigits? rest with
  | some (digits, next) =>
    let kept := digits.take 6
    (inBase 10 kept * Nat.pow 10 (6 - kept.length), next)
  | none => (0, rest)
where
  fractionDigits? (rest : Text) : Option (List Nat × Text) := do
    let body ← after? '.' rest
    let digits := body.takeWhile fun c => (decimalDigit? c).isSome
    if digits.isEmpty then none
    else some (digits.filterMap decimalDigit?, body.drop digits.length)

def clock? (rest : Text) : Option (Clock × Text) := do
  let (hour, rest) ← fixedDigits? 2 rest
  let (minute, rest) ← fixedDigits? 2 (← after? ':' rest)
  let (second, rest) ← fixedDigits? 2 (← after? ':' rest)
  if 24 ≤ hour || 60 ≤ minute || 60 ≤ second then none
  else
    let (microsecond, rest) := microseconds rest
    some (⟨hour, minute, second, microsecond⟩, rest)

/-- An offset from universal time, in minutes. -/
def offset? (rest : Text) : Option (Int × Text) :=
  match rest with
  | c :: after =>
    if c = 'Z'.toNat || c = 'z'.toNat then some (0, after)
    else if c = '+'.toNat || c = '-'.toNat then do
      let (hour, after) ← fixedDigits? 2 after
      let (minute, after) ← fixedDigits? 2 (← after? ':' after)
      if 24 ≤ hour || 60 ≤ minute then none
      else
        let size : Int := hour * 60 + minute
        some (if c = '-'.toNat then -size else size, after)
    else none
  | [] => none

/-- A day as it is written; whether there is such a day is another matter. -/
def date? (rest : Text) : Option (Date × Text) := do
  let (year, rest) ← fixedDigits? 4 rest
  let (month, rest) ← fixedDigits? 2 (← after? '-' rest)
  let (day, rest) ← fixedDigits? 2 (← after? '-' rest)
  if month = 0 || 12 < month || day = 0 || 31 < day then none else some (⟨year, month, day⟩, rest)

def daysIn (year month : Nat) : Nat :=
  if month = 2 then
    if year % 4 = 0 && (year % 100 != 0 || year % 400 = 0) then 29 else 28
  else if [4, 6, 9, 11].contains month then 30
  else 31

def dateExists (d : Date) : Bool := 1 ≤ d.year && d.day ≤ daysIn d.year d.month

def clockAfterDate? (rest : Text) : Option (Clock × Text) :=
  match rest with
  | c :: after => if c = 'T'.toNat || c = 't'.toNat || c = 0x20 then clock? after else none
  | [] => none

def moment? (rest : Text) : Option (Date × Value × Text) := do
  let (d, afterDate) ← date? rest
  match clockAfterDate? afterDate with
  | none => return (d, .date d, afterDate)
  | some (c, afterClock) =>
    match offset? afterClock with
    | none => return (d, .moment d c none, afterClock)
    | some (minutes, next) => return (d, .moment d c (some minutes), next)

def scalar (rest : Text) : Except Fault (Value × Text) :=
  match moment? rest with
  | some (d, v, next) => if dateExists d then .ok (v, next) else failAt .invalidDate rest
  | none =>
    match ((clock? rest).map fun (c, next) => (Value.clock c, next)).or
        ((number? rest).or (special? rest)) with
    | some found => .ok found
    | none => failAt .invalidValue rest

end LintCorpus.Toml
