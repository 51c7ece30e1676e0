import LintCorpus.Number.Binary64
import LintCorpus.Text.CaseFold
import LintCorpus.Text.Integer

/-!
Numbers written in decimal: with or without a point and an exponent, or one of the words for the
infinities and for not-a-number.
-/
namespace LintCorpus.Binary64

def digitsOnly? (t : Text) : Option (List Nat) := t.mapM Text.plainDigit?

def decimalOfText? (t : Text) : Option Binary64 :=
  let (negative, body) := Text.splitSign t
  let isMark (c : Nat) : Bool := c == 'e'.toNat || c == 'E'.toNat
  let mantissa := body.takeWhile fun c => !isMark c
  let power := body.drop mantissa.length
  let whole := mantissa.takeWhile (· != '.'.toNat)
  let fraction := (mantissa.drop whole.length).drop 1
  let (downwards, exponent) := Text.splitSign (power.drop 1)
  match digitsOnly? whole, digitsOnly? fraction, digitsOnly? exponent with
  | some w, some f, some e =>
    if w.isEmpty && f.isEmpty then none
    else if !power.isEmpty && e.isEmpty then none
    else
      let size : Int := Text.ofDigitValues e
      some (Binary64.ofDecimal negative (Text.ofDigitValues (w ++ f))
        ((if downwards then -size else size) - f.length))
  | _, _, _ => none

def ofNumeral? (t : Text) : Option Binary64 :=
  let (negative, body) := Text.splitSign t
  let word := body.foldCase
  if word = "inf" || word = "infinity" then some (.infinity negative)
  else if word = "nan" then some .nan
  else decimalOfText? t

def plainDigits (t : Text) : Text :=
  t.map fun c =>
    match Text.digitValue? c with
    | some d => 0x30 + d
    | none => c

/-- The text without low lines that stand between two digits, none if another one is left. -/
def joinDigits? (afterDigit : Bool) : Text → Option Text
  | [] => some []
  | c :: rest =>
    if c = '_'.toNat then
      if afterDigit && rest.head?.any Text.isPlainDigit then joinDigits? false rest else none
    else (joinDigits? (Text.isPlainDigit c) rest).map (c :: ·)

/-- A number in text: padding around it, digits of any script, and single low lines between
digits. -/
def ofText? (t : Text) : Option Binary64 := do
  let digits ← joinDigits? false (plainDigits t.unpad)
  ofNumeral? digits

end LintCorpus.Binary64
