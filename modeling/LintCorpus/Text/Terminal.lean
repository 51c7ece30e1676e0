import LintCorpus.Text.Basic

/-!
Control sequences of terminals: an escape character, a bracket, parameters and a letter. They colour
and move what a terminal shows, and they are no part of a text that is kept.
-/
namespace LintCorpus.Text

def escape : Nat := 0x1B

def isParameter (c : Nat) : Bool :=
  ('0'.toNat ≤ c && c ≤ '9'.toNat) || c == ';'.toNat || c == '?'.toNat

def endsSequence (c : Nat) : Bool :=
  ('a'.toNat ≤ c && c ≤ 'z'.toNat) || ('A'.toNat ≤ c && c ≤ 'Z'.toNat)

/-- What follows the control sequence that `t` completes after an escape character. -/
def afterSequence? : Text → Option Text
  | [] => none
  | c :: rest =>
    if c = '['.toNat then
      match rest.dropWhile isParameter with
      | [] => none
      | last :: shown => if endsSequence last then some shown else none
    else none

/-- `t` without its control sequences. An escape character that begins none of them stays, also if
it would begin one in the text that is left. -/
def withoutSequences (t : Text) : Text :=
  match t.splitAt escape with
  | [] => []
  | first :: pieces =>
    first ++ pieces.flatMap fun piece => (afterSequence? piece).getD (escape :: piece)

end LintCorpus.Text
