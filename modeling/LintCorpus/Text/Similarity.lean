import LintCorpus.Text.Basic

/-!
How alike two texts are. The longest block that occurs in both is matched first, then what is
before it and what is after it in the same way. Two texts are alike when at least three fifths of
their code points, counted in both, are in matching blocks.
-/
namespace LintCorpus.Text

def commonStart : Text → Text → Nat
  | a :: first, b :: second => if a = b then commonStart first second + 1 else 0
  | _, _ => 0

structure Block where
  inFirst : Nat
  inSecond : Nat
  size : Nat
deriving DecidableEq, Repr

/-- The longest block, among several the one that begins first in `a` and then in `b`. -/
def longestBlock (a b : Text) : Block :=
  let blocks := (List.range a.length).flatMap fun i => (List.range b.length).map fun j =>
    (⟨i, j, commonStart (a.drop i) (b.drop j)⟩ : Block)
  blocks.foldl (fun best block => if best.size < block.size then block else best) ⟨0, 0, 0⟩

def matched (a b : Text) : Nat :=
  match longestBlock a b with
  | ⟨i, j, size⟩ =>
    if _inside : 0 < size ∧ i < a.length then
      matched (a.take i) (b.take j) + size + matched (a.drop (i + size)) (b.drop (j + size))
    else 0
termination_by a.length
decreasing_by all_goals simp only [List.length_take, List.length_drop]; omega

/-- A text with how much of it and another one is matched, out of how many code points. -/
structure Likeness where
  text : Text
  matched : Nat
  total : Nat
deriving DecidableEq, Repr

def likeness (t candidate : Text) : Likeness :=
  ⟨candidate, candidate.matched t, candidate.length + t.length⟩

def Likeness.suffices (l : Likeness) : Bool := 3 * l.total ≤ 10 * l.matched

/-- Whether `a` is to come before `b`: more alike, or as much alike and later in order. -/
def Likeness.before (a b : Likeness) : Bool :=
  if a.matched * b.total = b.matched * a.total then le b.text a.text
  else b.matched * a.total < a.matched * b.total

/-- The three candidates that are most like `t`, fewer if few are alike, in order. -/
def closest (t : Text) (candidates : List Text) : List Text :=
  let alike := (candidates.map (likeness t)).filter Likeness.suffices
  sort (((alike.mergeSort Likeness.before).take 3).map Likeness.text)

end LintCorpus.Text
