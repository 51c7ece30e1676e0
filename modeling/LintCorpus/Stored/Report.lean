import LintCorpus.Files.Tree
import LintCorpus.Json.Reader
import LintCorpus.Json.Writer
import LintCorpus.Schema.Objection
import LintCorpus.Stored.Form
import LintCorpus.Stored.Schema

/-!
Results in files, as JSON. The counts are written beside the result for readers that want nothing
else; they are not read back.
-/
namespace LintCorpus

inductive ReportFault where
  | unreadable (path : Path) (fault : FileFault)
  | malformed (path : Path) (reason : Text)
  | notAnObject (path : Path)
  | invalid (path : Path) (objections : List Objection)
deriving DecidableEq

namespace ReportFault

def headline : ReportFault → Text
  | .unreadable path fault => "Unable to read report " ++ path.toText ++ ": " ++ fault.message
  | .malformed path reason => "Report " ++ path.toText ++ " is not valid JSON: " ++ reason
  | .notAnObject path => "Report " ++ path.toText ++ " must contain a JSON object"
  | .invalid path _ => "Report " ++ path.toText ++ " is not a cratelint result:"

def message : ReportFault → Text
  | .invalid path objections =>
    (ReportFault.invalid path objections).headline ++ "\n" ++
      Objection.describeAll "AggregateResult" objections
  | fault => fault.headline

end ReportFault

namespace StoredReport

def summaryName : Text := "summary"

def write (r : CorpusResult) : Text :=
  Json.write .indented (.object (r.toMembers ++ [(summaryName, r.summary.toValue)])) ++ "\n"

/-- The result in a file. A file that is beyond the limits of JSON texts is read like any other. -/
def ofText (path : Path) (content : Text) : Except ReportFault CorpusResult :=
  match Json.read content with
  | .error fault => .error (.malformed path (fault.message content))
  | .ok (.object members) =>
    let kept := members.filter fun m => m.1 != summaryName
    match CorpusResult.ofMembers kept with
    | .valid r => .ok r
    | .invalid faults => .error (.invalid path (faults.map (Objection.about (.object kept))))
  | .ok _ => .error (.notAnObject path)

def load (t : FileTree) (path : Path) : Except (Failure ReportFault) CorpusResult := do
  let content ← (t.readText path).mapError (Failure.ofFile (ReportFault.unreadable path))
  (ofText path content).mapError Failure.reported

def writeFile (t : FileTree) (path : Path) (content : Text) : FileTree × Except FileFault Unit :=
  match t.ensureDirectories path.parent with
  | .error fault => (t, .error fault)
  | .ok made => made.writeText path content

end StoredReport
end LintCorpus
