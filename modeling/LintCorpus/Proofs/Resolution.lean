import LintCorpus.Proofs.Aggregate.Packages
import LintCorpus.Proofs.Failure
import LintCorpus.Proofs.LintName
import LintCorpus.Proofs.Sorting

/-!
Names of lints against the help of the linter and against findings. What is typed, what the help
lists and what findings carry meet in one form: small letters and low lines, without the tool.
-/
namespace LintCorpus

namespace Text

end Text

namespace LintName

open Text

/-- A lint is the first word of a line between the first header of lints and the first one of
groups. -/
def Lists (lines : List Text) (lint : Text) : Prop :=
  ∃ front line back, lines = front ++ line :: back ∧ FirstWord line lint ∧
    (∃ header ∈ front, header.startsWith lintsHeader = true) ∧
    ∀ other ∈ front ++ [line], other.startsWith groupsHeader = false

/-- What was typed without white space around it, in small letters and without the tool. -/
def bare (typed : Text) : Text := removeStart (typed.strip.map small) Record.toolPrefix

/-- The rule that a typed name would stand for. -/
def canonical (typed : Text) : Text := replace '-'.toNat '_'.toNat (bare typed)

def letter (c : Nat) : Nat := if small c = '-'.toNat then '_'.toNat else small c

end LintName

namespace Record

end Record

namespace Workspace

open Text LintName

variable (launch : Launcher) (w : Workspace)

end Workspace
end LintCorpus
