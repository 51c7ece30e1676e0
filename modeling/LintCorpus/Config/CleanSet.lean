import LintCorpus.Config.Basic
import LintCorpus.Text.Lines
import LintCorpus.Toml.Load

/-!
Files that name the packages expected to be clean: one name a line with comments after a hash, or
a list in a TOML document.
-/
namespace LintCorpus

inductive CleanSetFault where
  | unreadable (path : Path) (fault : FileFault)
  | malformed (path : Path) (fault : Toml.DocumentFault)
  | missingList (path : Path)
  | badName (path : Path) (reason : Text)
deriving DecidableEq

def CleanSetFault.message : CleanSetFault → Text
  | .unreadable path fault =>
    "Unable to read expected-clean set " ++ path.toText ++ ": " ++ fault.message
  | .malformed path fault =>
    "Expected-clean set " ++ path.toText ++ " is not valid TOML: " ++ fault.message
  | .missingList path => "Expected-clean set " ++ path.toText ++ " must define `clean = [...]`"
  | .badName path reason => path.toText ++ ": " ++ reason

namespace CleanSet

/-- The name on a line, without its comment and the blanks around it. -/
def lineName (line : Text) : Text := Text.strip (line.takeWhile (· != '#'.toNat))

def lineNames (content : Text) : List Text :=
  (content.lines.map lineName).filter fun name => !name.isEmpty

def listed? (d : Members) : Option (List Value) :=
  match d.field "clean" with
  | .list values => some values
  | _ => none

def tomlSuffix : Text := ".toml"

def values (p : Path) (content : Text) : Except CleanSetFault (List Value) :=
  if p.suffix = tomlSuffix then
    match Toml.read content with
    | .error fault => .error (.malformed p fault)
    | .ok d =>
      match listed? d with
      | some values => .ok values
      | none => .error (.missingList p)
  else .ok ((lineNames content).map Value.text)

def ofText (p : Path) (content : Text) : Except CleanSetFault (List Text) := do
  let given ← values p content
  match packageNames given with
  | .ok names => return sortedSet names
  | .error v => .error (.badName p (badPackageName v))

/-- A refusal and bytes that are no text are reported, anything else ends the program. -/
def readFailure (p : Path) : FileFault → Failure CleanSetFault
  | .undecodable fault => .reported (.unreadable p (.undecodable fault))
  | fault => .ofFile (CleanSetFault.unreadable p) fault

def load (t : FileTree) (p : Path) : Except (Failure CleanSetFault) (List Text) := do
  let content ← (t.readText p).mapError (readFailure p)
  (ofText p content).mapError Failure.reported

end CleanSet
end LintCorpus
