import LintCorpus.Text.Basic

/-!
Lower-case forms as far as they hold letters of ASCII. Besides A to Z two code points have such a
form: the Kelvin sign, and the capital I with a dot, whose dot becomes a mark of its own.
-/
namespace LintCorpus.Text

/-- One code point with ASCII letters made small; all other letters stand for themselves. -/
def foldOne (c : Nat) : Text :=
  if 0x41 ≤ c && c ≤ 0x5A then [c + 0x20]
  else if c = 0x212A then ['k'.toNat]
  else if c = 0x130 then ['i'.toNat, 0x307]
  else [c]

def foldCase (t : Text) : Text := t.flatMap foldOne

end LintCorpus.Text
