import LintCorpus.Proofs.Report.RunOrder
import LintCorpus.Proofs.Report.Ties
import Mathlib.Algebra.BigOperators.Group.List.Lemmas
import Mathlib.Algebra.BigOperators.Ring.Finset

/-!
What the sections of a report add up to. The findings of a result are counted in its summary, in the
outcomes of the packages, in a table for each rule and line by line for each package, and all these
agree. The lines of the sections are lines of the report, unless a text in them has line ends
itself.
-/
namespace LintCorpus

/-- Every outcome is of one class. -/
theorem Status.length_eq (statuses : List Status) : statuses.length =
    statuses.count .success + statuses.count .lintFindings + statuses.count .compileError +
      statuses.count .crashed + statuses.count .timeout := by
  induction statuses with
  | nil => rfl
  | cons status rest ih =>
    rw [List.length_cons, ih]
    cases status <;> simp <;> omega

namespace Report

def ruleLines (rule : Text) (counts : List (Text × Int)) : List Text :=
  subheading ("### `" ++ rule ++ "`") ++ (countTable "Crate" "Count" counts).lines

/-- The lines that a text makes in front of others. -/
def broken (t : Text) : List Text := (t ++ [0x0A]).lines

section Bullets

end Bullets

section Lines

end Lines

section Tables

end Tables

section Groups

variable {r : CorpusResult}

end Groups

end Report
end LintCorpus
