import LintCorpus.Text.Basic

/-!
Lines of a text. A line ends at any of ten terminators, and a carriage return with a line feed
after it is one terminator. No line follows the last terminator.
-/
namespace LintCorpus.Text

def endsLine (c : Nat) : Bool :=
  (0x0A ≤ c && c ≤ 0x0D) || (0x1C ≤ c && c ≤ 0x1E) || c == 0x85 || c == 0x2028 || c == 0x2029

/-- Lines met so far, newest first, and the open line with its newest code point first. -/
structure LineReader where
  complete : List Text := []
  current : Text := []
  afterReturn : Bool := false

namespace LineReader

/-- Reads one code point. A line feed right after a carriage return belongs to it. -/
def step (r : LineReader) (c : Nat) : LineReader :=
  if r.afterReturn && c == 0x0A then { r with afterReturn := false }
  else if endsLine c then
    { complete := r.current.reverse :: r.complete, current := [], afterReturn := c == 0x0D }
  else { r with current := c :: r.current, afterReturn := false }

/-- The lines read, an open line last unless it is empty. -/
def finish (r : LineReader) : List Text :=
  (if r.current.isEmpty then r.complete else r.current.reverse :: r.complete).reverse

end LineReader

def lines (t : Text) : List Text := (t.foldl LineReader.step {}).finish

def normalizeNewlines (t : Text) : Text :=
  (t.foldl (fun (out, afterReturn) c =>
    if c = 0x0A && afterReturn then (out, false)
    else if c = 0x0D then (0x0A :: out, true)
    else (c :: out, false)) (([] : Text), false)).1.reverse

end LintCorpus.Text
