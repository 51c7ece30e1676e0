import LintCorpus.Text.Blank
import LintCorpus.Text.DecimalDigit

/-!
Integers written in decimal: padding around them, a sign, digits of any script, and single low
lines between digits.
-/
namespace LintCorpus.Text

/-- A blank that may stand around a number; the four information separators may not. -/
def isPadding (c : Nat) : Bool := isBlank c && !(0x1C ≤ c && c ≤ 0x1F)

def unpad (t : Text) : Text :=
  ((t.dropWhile isPadding).reverse.dropWhile isPadding).reverse

def splitSign : Text → Bool × Text
  | c :: rest =>
    if c = '-'.toNat then (true, rest)
    else if c = '+'.toNat then (false, rest)
    else (false, c :: rest)
  | [] => (false, [])

/-- Digits with single low lines between them, as their values. `expectDigit` says that a low line
or nothing has come before. -/
def digitValues? (digit? : Nat → Option Nat) (expectDigit : Bool) : Text → Option (List Nat)
  | [] => if expectDigit then none else some []
  | c :: rest =>
    match digit? c with
    | some d => (digitValues? digit? false rest).map (d :: ·)
    | none =>
      if c = '_'.toNat && !expectDigit then digitValues? digit? true rest else none

def ofDigitValues (digits : List Nat) : Nat := digits.foldl (fun n d => n * 10 + d) 0

/-- The integer that a text of at most `mostDigits` digits denotes. -/
def toInt? (t : Text) : Option Int := do
  let (negative, digits) := splitSign (unpad t)
  let values ← digitValues? digitValue? true digits
  let n : Int := ofDigitValues values
  if mostDigits < values.length then none
  else if negative then some (-n)
  else some n

end LintCorpus.Text
