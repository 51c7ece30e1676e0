import LintCorpus.Text.Basic

/-!
White space: which code points are blank, trimming them from the ends of a text, and the words
between them. The blanks are the separators of Unicode's bidirectional classes B, S and WS
together with the space separators.
-/
namespace LintCorpus.Text

def isBlank (c : Nat) : Bool :=
  (0x09 ≤ c && c ≤ 0x0D) || (0x1C ≤ c && c ≤ 0x20) || c == 0x85 || c == 0xA0 || c == 0x1680 ||
  (0x2000 ≤ c && c ≤ 0x200A) || c == 0x2028 || c == 0x2029 || c == 0x202F || c == 0x205F ||
  c == 0x3000

def stripEnd (t : Text) : Text := (t.reverse.dropWhile isBlank).reverse

def strip (t : Text) : Text := stripEnd (t.dropWhile isBlank)

/-- The maximal runs of code points that are not blank. -/
def words (t : Text) : List Text :=
  let last := t.foldr
    (fun c (word, found) =>
      if isBlank c then ([], if word.isEmpty then found else word :: found) else (c :: word, found))
    (([] : Text), ([] : List Text))
  if last.1.isEmpty then last.2 else last.1 :: last.2

end LintCorpus.Text
