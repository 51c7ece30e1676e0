import LintCorpus.Files.Tree
import LintCorpus.Toml.Reader

/-!
TOML documents in files.
-/
namespace LintCorpus.Toml

inductive LoadFault where
  | file (fault : FileFault)
  | document (fault : DocumentFault)
deriving DecidableEq

namespace LoadFault

def message : LoadFault → Text
  | .file fault => fault.message
  | .document fault => fault.message

/-- A refusal or a fault of the document is reported, anything else ends the program. -/
def toFailure {ε : Type} (report : LoadFault → ε) : LoadFault → Failure ε
  | .file fault => .ofFile (fun refused => report (.file refused)) fault
  | .document fault => .reported (report (.document fault))

end LoadFault

def load (t : FileTree) (p : Path) : Except LoadFault Members := do
  let bytes ← (t.read p).mapError LoadFault.file
  match Utf8.decodeStrict bytes with
  | .error fault => .error (.file (.undecodable fault))
  | .ok content => (read content).mapError LoadFault.document

end LintCorpus.Toml
