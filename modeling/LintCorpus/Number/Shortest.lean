import LintCorpus.Number.Binary64

/-!
The text of a double-precision number. The default text has the fewest significant digits that
read back as the same number, and of those the digits nearest to it. The short text rounds to a
given count of significant digits and drops zeros at the end.
-/
namespace LintCorpus

structure Decimal where
  digits : Nat
  exponent : Int
deriving DecidableEq, Repr

namespace Decimal

/-- The same value without zeros at the end of the digits; `fuel` bounds how many are dropped. -/
def trim : Nat → Decimal → Decimal
  | 0, d => d
  | fuel + 1, d =>
    if d.digits ≠ 0 ∧ d.digits % 10 = 0 then trim fuel ⟨d.digits / 10, d.exponent + 1⟩ else d

end Decimal

namespace Magnitude

/-- Where the decimal point stands: `10 ^ (point - 1) ≤ value < 10 ^ point` for a positive value. -/
def point (m : Magnitude) : Int :=
  (Binary64.digitCount (m.units * Nat.pow 10 400 / Nat.pow 2 1074) : Int) - 400

def overPower (m : Magnitude) (exponent : Int) : Nat × Nat :=
  if exponent < 0 then (m.units * Nat.pow 10 exponent.natAbs, Nat.pow 2 1074)
  else (m.units, Nat.pow 2 1074 * Nat.pow 10 exponent.natAbs)

/-- The two neighbours of the value on the grid of `count` digits, the nearer first. -/
def neighbours (m : Magnitude) (count : Nat) : List Decimal :=
  let exponent := m.point - count
  let (a, d) := m.overPower exponent
  let below : Decimal := ⟨a / d, exponent⟩
  let above : Decimal := ⟨a / d + 1, exponent⟩
  let twice := 2 * (a % d)
  if twice < d || (twice == d && below.digits % 2 == 0) then [below, above] else [above, below]

def readsBack (m : Magnitude) (d : Decimal) : Bool :=
  Binary64.ofDecimal false d.digits d.exponent == .finite false m

/-- The neighbour on the grid of `count` digits that reads back as the value, the nearer of two. -/
def onGrid? (m : Magnitude) (count : Nat) : Option Decimal :=
  (m.neighbours count).find? m.readsBack

def allDigits (m : Magnitude) : Decimal := ⟨m.units * Nat.pow 5 1074, -1074⟩

/-- The shortest decimal that reads back as a positive value. -/
def shortest (m : Magnitude) : Decimal :=
  let grids := (List.range 17).map (· + 1)
  let found := (grids.findSome? m.onGrid?).getD m.allDigits
  found.trim (Binary64.digitCount found.digits)

def toDigits (m : Magnitude) (count : Nat) : Decimal :=
  let exponent := m.point - count
  let (a, d) := m.overPower exponent
  Decimal.trim (count + 1) ⟨roundHalfEven a d, exponent⟩

end Magnitude

/-- How decimals are laid out: which places of the point are written positionally, and whether a
whole number keeps a zero after the point. -/
structure NumberLayout where
  least : Int
  greatest : Int
  keepPoint : Bool

namespace NumberLayout

/-- Positional between `10 ^ -4` and `10 ^ 16`; a whole number ends in `.0`. -/
def default : NumberLayout := ⟨-3, 16, true⟩

/-- Positional between `10 ^ -4` and `10 ^ 6`; a whole number has no point. -/
def brief : NumberLayout := ⟨-3, 6, false⟩

def write (layout : NumberLayout) (d : Decimal) : Text :=
  let digits := Text.ofNat d.digits
  let count : Int := digits.length
  let point := count + d.exponent
  let zeros (n : Int) : Text := Text.copies n.toNat '0'.toNat
  if layout.least ≤ point ∧ point ≤ layout.greatest then
    if point ≤ 0 then "0." ++ zeros (-point) ++ digits
    else if count ≤ point then
      digits ++ zeros (point - count) ++ (if layout.keepPoint then (".0" : Text) else [])
    else digits.take point.toNat ++ "." ++ digits.drop point.toNat
  else
    let power := point - 1
    let amount := Text.ofNat power.natAbs
    digits.take 1 ++ (if digits.length = 1 then ([] : Text) else "." ++ digits.drop 1) ++ "e" ++
      (if power < 0 then ("-" : Text) else "+") ++
      Text.copies (2 - amount.length) '0'.toNat ++ amount

end NumberLayout

namespace Binary64

def render (magnitude : Magnitude → Text) (zero : Text) : Binary64 → Text
  | .nan => "nan"
  | .infinity negative => if negative then "-inf" else "inf"
  | .finite negative m =>
    (if negative then ("-" : Text) else []) ++ (if m.mantissa = 0 then zero else magnitude m)

def toText : Binary64 → Text :=
  render (fun m => NumberLayout.default.write m.shortest) "0.0"

def brief : Binary64 → Text :=
  render (fun m => NumberLayout.brief.write (m.toDigits 6)) "0"

end Binary64
end LintCorpus
