import LintCorpus.Severity
import LintCorpus.Text.DecimalDigit

/-!
Findings of the linter. The rendering and the suggestion are carried along, but the identity of a
finding is its key: package, rule, place and message.
-/
namespace LintCorpus

/-- What makes two findings the same. -/
structure DiagnosticKey where
  package : Text
  rule : Text
  file : Option Text
  line : Option Int
  column : Option Int
  message : Text
deriving DecidableEq

structure Diagnostic where
  package : Text
  rule : Text
  severity : Severity
  message : Text
  file : Option Text := none
  line : Option Int := none
  column : Option Int := none
  suggestion : Option Text := none
  rendered : Option Text := none
deriving DecidableEq

/-- What findings are sorted by: place, then message, then rule. -/
structure SortKey where
  file : Text
  line : Int
  column : Int
  message : Text
  rule : Text
deriving DecidableEq

namespace SortKey

def compare (a b : SortKey) : Ordering :=
  (Ord.compare a.file b.file).then <| (Ord.compare a.line b.line).then <|
    (Ord.compare a.column b.column).then <| (Ord.compare a.message b.message).then <|
      Ord.compare a.rule b.rule

def le (a b : SortKey) : Bool := (a.compare b).isLE

end SortKey

namespace Diagnostic

def key (d : Diagnostic) : DiagnosticKey :=
  ⟨d.package, d.rule, d.file, d.line, d.column, d.message⟩

def unknownLocation : Text := "<unknown>"

/-- File, line and column as far as they are known; a column counts only with a line. -/
def location (d : Diagnostic) : Text :=
  match d.file, d.line, d.column with
  | none, _, _ => unknownLocation
  | some file, none, _ => file
  | some file, some line, none => file ++ ":" ++ Text.ofInt line
  | some file, some line, some column =>
    file ++ ":" ++ Text.ofInt line ++ ":" ++ Text.ofInt column

def sortKey (d : Diagnostic) : SortKey :=
  ⟨d.file.getD [], d.line.getD 0, d.column.getD 0, d.message, d.rule⟩

/-- Whether a rule has the form of a compiler error code: E and four digits. -/
def isErrorCode : Text → Bool
  | e :: digits => e == 'E'.toNat && digits.length == 4 && digits.all Text.isDigit
  | [] => false

def isCompilerError (d : Diagnostic) : Bool := d.severity == .error && isErrorCode d.rule

def sort (ds : List Diagnostic) : List Diagnostic :=
  ds.mergeSort fun a b => a.sortKey.le b.sortKey

end Diagnostic

/-- A fragment of a stream that could not be decoded. -/
structure Issue where
  line : Int
  reason : Text
  excerpt : Text := []
deriving DecidableEq

structure Parsed where
  diagnostics : List Diagnostic := []
  issues : List Issue := []
  records : Int := 0
  unparsed : Bool := false
deriving DecidableEq

namespace Parsed

def isPartial (p : Parsed) : Bool := !p.issues.isEmpty

def lintDiagnostics (p : Parsed) : List Diagnostic :=
  p.diagnostics.filter fun d => !d.isCompilerError

end Parsed
end LintCorpus
