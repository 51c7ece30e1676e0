import LintCorpus.Text.Basic

/-!
Braces outside strings. The scanner counts how deep a text is inside objects and knows whether it
is inside a string, so the end of an object shows without decoding it.
-/
namespace LintCorpus

/-- How deep a text is inside braces, whether inside a string, and whether right after a backslash
of that string. -/
structure Scanner where
  depth : Int := 0
  inString : Bool := false
  escaped : Bool := false
deriving DecidableEq, Repr

namespace Scanner

def step (s : Scanner) (c : Nat) : Scanner :=
  if s.inString then
    if s.escaped then { s with escaped := false }
    else if c = '\\'.toNat then { s with escaped := true }
    else if c = '"'.toNat then { s with inString := false }
    else s
  else if c = '"'.toNat then { s with inString := true }
  else if c = '\x7b'.toNat then { s with depth := s.depth + 1 }
  else if c = '\x7d'.toNat then { s with depth := s.depth - 1 }
  else s

def overcloses (s : Scanner) (c : Nat) : Bool :=
  !s.inString && c == '\x7d'.toNat && s.depth - 1 < 0

/-- Takes a text, up to a brace that closes more than was opened. -/
def feed (s : Scanner) : Text → Scanner
  | [] => s
  | c :: rest => if s.overcloses c then s.step c else feed (s.step c) rest

end Scanner
end LintCorpus
