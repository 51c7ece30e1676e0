import LintCorpus.Proofs.Stream.Excess
import LintCorpus.Proofs.Text.Lines
import LintCorpus.Proofs.Text.Utf8

/-!
Resuming at a record. A line that begins with a brace and a quote is read the same whatever the
reader was in the middle of: only the numbers of the lines tell that something came before.
-/
namespace LintCorpus

/-- The issue with its line counted from `offset` lines earlier. -/
def Issue.shifted (offset : Nat) (i : Issue) : Issue := { i with line := i.line + offset }

namespace StreamEvent

def shifted (offset : Nat) : StreamEvent → StreamEvent
  | .started line => .started (line + offset)
  | .decoded record => .decoded record
  | .skipped issue => .skipped (issue.shifted offset)
  | .stopped excess => .stopped excess

end StreamEvent

namespace StreamReader

def shifted (offset : Nat) (r : StreamReader) : StreamReader :=
  if r.mode = .inRecord then { r with startLine := r.startLine + offset } else r

variable (limits : StreamLimits) (offset : Nat)

section Resumes

variable {limits} (limits) (front back : Bytes)

/-- The reader behind the last line that it takes of `front`. -/
def left : StreamReader := after limits {} 1 (reached limits {} 1 (Utf8.decode front).lines)

/-- The issues of `front` but for its end. -/
def met : List Issue :=
  StreamEvent.issues (events limits {} 1 (reached limits {} 1 (Utf8.decode front).lines))

variable {limits front back} (ended : front = [] ∨ front.getLast? = some 0x0A)

include ended

variable (begins : [0x7B, 0x22] <+: back)

include begins

end Resumes

end StreamReader
end LintCorpus
