import LintCorpus.Text.Basic

/-!
Sets of code points given as ranges with both ends included.
-/
namespace LintCorpus.Text

def inRanges (ranges : List (Nat × Nat)) (c : Nat) : Bool :=
  ranges.any fun range => range.1 ≤ c && c ≤ range.2

end LintCorpus.Text
