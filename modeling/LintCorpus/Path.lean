import LintCorpus.Text.Basic

/-!
Paths as lists of components. Empty components and single dots mean nothing and are not kept;
double dots stay, because what they lead to depends on the files. A path that begins with exactly
two slashes is told apart from one that begins with one.
-/
namespace LintCorpus

def Component (t : Text) : Prop := t ≠ [] ∧ t ≠ ".".toList.map Char.toNat ∧ '/'.toNat ∉ t

instance (t : Text) : Decidable (Component t) := by unfold Component; infer_instance

inductive Anchor where
  | here
  | root
  | doubleRoot
deriving DecidableEq, Repr

structure Path where
  anchor : Anchor
  parts : List Text
  clean : ∀ part ∈ parts, Component part
deriving DecidableEq

namespace Path

def ofText (t : Text) : Path where
  anchor :=
    if t.startsWith "//" && !t.startsWith "///" then .doubleRoot
    else if t.startsWith "/" then .root
    else .here
  parts := (Text.splitAt '/'.toNat t).filter fun part => decide (Component part)
  clean := by
    intro part member
    simpa using (List.mem_filter.mp member).2

instance : Inhabited Path := ⟨⟨.here, [], by simp⟩⟩

def toText (p : Path) : Text :=
  let components := Text.join "/" p.parts
  match p.anchor with
  | .here => if p.parts.isEmpty then "." else components
  | .root => "/" ++ components
  | .doubleRoot => "//" ++ components

def isAbsolute (p : Path) : Bool := p.anchor != .here

def join (p q : Path) : Path :=
  if q.isAbsolute then q
  else
    { p with
      parts := p.parts ++ q.parts
      clean := by
        intro part member
        rcases List.mem_append.mp member with inside | inside
        · exact p.clean part inside
        · exact q.clean part inside }

def child (p : Path) (name : Text) : Path := p.join (ofText name)

def parent (p : Path) : Path :=
  { p with
    parts := p.parts.dropLast
    clean := fun part member => p.clean part ((List.dropLast_sublist _).subset member) }

def name (p : Path) : Text := p.parts.getLast?.getD []

/-- The last dot of the name and what follows it, unless the dot is the first or last code point. -/
def suffix (p : Path) : Text :=
  let afterDot := (p.name.reverse.takeWhile (· != '.'.toNat)).reverse
  let before := p.name.length - afterDot.length - 1
  if afterDot.isEmpty || before = 0 || afterDot.length = p.name.length then []
  else p.name.drop before

/-- The path as seen from the root, when `base` is the working directory. -/
def absolute (p base : Path) : Path := if p.isAbsolute then p else base.join p

end Path
end LintCorpus
