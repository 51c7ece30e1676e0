import LintCorpus.Value
import LintCorpus.Text.Blank
import LintCorpus.Text.CaseFold

/-!
How grave a diagnostic is. The compiler has a few levels more; each stands for the nearest of the
four kept here.
-/
namespace LintCorpus

inductive Severity where
  | error
  | warning
  | note
  | help
deriving DecidableEq, Repr, Inhabited

namespace Severity

def all : List Severity := [.error, .warning, .note, .help]

def name : Severity → Text
  | .error => "error"
  | .warning => "warning"
  | .note => "note"
  | .help => "help"

def ofName? (t : Text) : Option Severity := all.find? fun s => s.name == t

def levels : List (Text × Severity) :=
  [("error", .error), ("error: internal compiler error", .error), ("warning", .warning),
    ("note", .note), ("failure-note", .note), ("help", .help)]

/-- The severity of a level, in any case and with any blanks around it; `default` if it is none. -/
def ofLevel (level : Value) (default : Severity) : Severity :=
  match level with
  | .text t => (levels.lookup (Text.foldCase (Text.strip t))).getD default
  | _ => default

end Severity
end LintCorpus
