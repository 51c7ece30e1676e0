import LintCorpus.Text.Basic

/-!
Double-precision numbers as exact values. A finite number is a sign and a magnitude
`mantissa * 2 ^ shift / 2 ^ 1074` in normal form, so equal values have equal forms, the two zeros
apart. Quotients and decimals are rounded to the nearest number, a tie to the even mantissa.
-/
namespace LintCorpus

/-- A magnitude in normal form: below 53 bits, and at least 53 bits long above the lowest range. -/
structure Magnitude where
  mantissa : Nat
  shift : Nat
  bounded : mantissa < Nat.pow 2 53
  normal : shift = 0 ∨ Nat.pow 2 52 ≤ mantissa
  inRange : shift ≤ 2045
deriving DecidableEq

inductive Binary64 where
  | nan
  | infinity (negative : Bool)
  | finite (negative : Bool) (magnitude : Magnitude)
deriving DecidableEq

/-- The integer nearest to `a / d`, the even one of two. -/
def roundHalfEven (a d : Nat) : Nat :=
  let q := a / d
  let twice := 2 * (a % d)
  if twice < d then q
  else if d < twice then q + 1
  else if q % 2 = 0 then q else q + 1

namespace Magnitude

def zero : Magnitude := ⟨0, 0, by decide, .inl rfl, by decide⟩

instance : Inhabited Magnitude := ⟨zero⟩

/-- The value as a multiple of `2 ^ -1074`. -/
def units (m : Magnitude) : Nat := m.mantissa * Nat.pow 2 m.shift

def ofParts? (mantissa shift : Nat) : Option Magnitude :=
  if h : mantissa < Nat.pow 2 53 ∧ (shift = 0 ∨ Nat.pow 2 52 ≤ mantissa) ∧ shift ≤ 2045 then
    some ⟨mantissa, shift, h.1, h.2.1, h.2.2⟩
  else none

/-- The least shift whose unit leaves at most 53 bits of `a / d`. -/
def unitShift (a d : Nat) : Nat :=
  let guess := a.log2 - (d.log2 + 52)
  if 0 < guess ∧ a < d * Nat.pow 2 (guess + 52) then guess - 1 else guess

/-- The magnitude nearest to `a / d` units, or none when that is beyond the greatest. -/
def round? (a d : Nat) : Option Magnitude :=
  let shift := unitShift a d
  let mantissa := roundHalfEven a (d * Nat.pow 2 shift)
  if mantissa = Nat.pow 2 53 then ofParts? (Nat.pow 2 52) (shift + 1) else ofParts? mantissa shift

end Magnitude

namespace Binary64

def zero (negative : Bool) : Binary64 := .finite negative .zero

instance : Inhabited Binary64 := ⟨zero false⟩

def ofQuotient (negative : Bool) (a d : Nat) : Binary64 :=
  if a = 0 then zero negative
  else match Magnitude.round? (a * Nat.pow 2 1074) d with
    | some m => .finite negative m
    | none => .infinity negative

def digitCount (n : Nat) : Nat := (Nat.toDigits 10 n).length

def ofDecimal (negative : Bool) (digits : Nat) (exponent : Int) : Binary64 :=
  let top := (digitCount digits : Int) + exponent
  if digits = 0 then zero negative
  else if top > 310 then .infinity negative
  else if top < -330 then zero negative
  else if exponent < 0 then ofQuotient negative digits (Nat.pow 10 exponent.natAbs)
  else ofQuotient negative (digits * Nat.pow 10 exponent.natAbs) 1

def ofInt (i : Int) : Binary64 := ofQuotient (decide (i < 0)) i.natAbs 1

def ofRatio (i : Int) (d : Nat) : Binary64 := ofQuotient (decide (i < 0)) i.natAbs d

/-- A place on the number line beyond all finite numbers, in units. -/
def farthest : Int := Nat.pow 2 2100

/-- The place of a number on the number line, in units; infinities lie beyond all others. -/
def rank? : Binary64 → Option Int
  | .nan => none
  | .infinity negative => some (if negative then -farthest else farthest)
  | .finite negative m => some (if negative then -(m.units : Int) else m.units)

/-- Strictly less; nothing is less or greater than not-a-number. -/
def lt (a b : Binary64) : Bool :=
  match a.rank?, b.rank? with
  | some x, some y => x < y
  | _, _ => false

/-- The same place on the number line: zeros are equal, not-a-number equals nothing. -/
def same (a b : Binary64) : Bool :=
  match a.rank?, b.rank? with
  | some x, some y => x == y
  | _, _ => false

def isFinite : Binary64 → Bool
  | .finite .. => true
  | _ => false

def toInt? : Binary64 → Option Int
  | .finite negative m =>
    if m.units % Nat.pow 2 1074 = 0 then
      let n : Int := (m.units / Nat.pow 2 1074 : Nat)
      some (if negative then -n else n)
    else none
  | _ => none

end Binary64
end LintCorpus
