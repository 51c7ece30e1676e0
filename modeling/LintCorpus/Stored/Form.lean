import LintCorpus.CorpusResult
import LintCorpus.Text.Utf8
import LintCorpus.Value

/-!
The form in which findings, outcomes and results are stored. Members come in a fixed order.
-/
namespace LintCorpus

/-- The object that stores a map. Names are stored as UTF-8 can hold them, so two of them may become
one. -/
def Value.ofDict (d : Dict Value) : Value :=
  .ofMembers (d.entries.map fun entry => (Utf8.scrub entry.1, entry.2))

def Diagnostic.toValue (d : Diagnostic) : Value :=
  .object [("package", .text d.package), ("rule", .text d.rule),
    ("severity", .text d.severity.name), ("message", .text d.message),
    ("file", .ofText? d.file), ("line", .ofInt? d.line), ("column", .ofInt? d.column),
    ("suggestion", .ofText? d.suggestion), ("rendered", .ofText? d.rendered)]

def Diagnostic.listToValue (ds : List Diagnostic) : Value := .list (ds.map Diagnostic.toValue)

def Issue.toValue (i : Issue) : Value :=
  .object [("line", .int i.line), ("reason", .text i.reason), ("excerpt", .text i.excerpt)]

def Parsed.toValue (p : Parsed) : Value :=
  .object [("diagnostics", Diagnostic.listToValue p.diagnostics),
    ("issues", .list (p.issues.map Issue.toValue)), ("records", .int p.records),
    ("unparsed", .bool p.unparsed)]

def Package.toValue (p : Package) : Value :=
  .object [("name", .text p.name), ("path", .text p.path.toText), ("state", .text p.state.name)]

def Outcome.toValue (o : Outcome) : Value :=
  .object [("name", .text o.name), ("status", .text o.status.name),
    ("returncode", .ofInt? o.returncode), ("diagnostics", .int o.diagnostics),
    ("filtered_out", .int o.filteredOut), ("unparsed_output", .bool o.unparsedOutput),
    ("parse_issues", .int o.parseIssues), ("duration_s", .float o.duration),
    ("allow_count", .ofInt? o.allowCount), ("tail", .text o.tail)]

def Summary.toValue (s : Summary) : Value :=
  .object [("attempted", .int s.attempted), ("succeeded", .int s.succeeded),
    ("had_findings", .int s.hadFindings), ("failed_to_build", .int s.failedToBuild),
    ("crashed", .int s.crashed), ("timed_out", .int s.timedOut),
    ("diagnostics", .int s.diagnostics)]

namespace CorpusResult

def toMembers (r : CorpusResult) : List (Text × Value) :=
  [("root", .text r.root.toText), ("target_lint", .ofText? r.targetLint),
    ("packages", .ofTexts r.packages),
    ("outcomes", .ofDict (r.outcomes.mapValues Outcome.toValue)),
    ("diagnostics", .ofDict (r.diagnostics.mapValues Diagnostic.listToValue))]

def toValue (r : CorpusResult) : Value := .object r.toMembers

end CorpusResult
end LintCorpus
