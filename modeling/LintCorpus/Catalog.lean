import LintCorpus.Console
import LintCorpus.Package
import LintCorpus.Toml.Load

/-!
The packages of a corpus: the directories right below its root that hold a readable manifest, in
the order of their names. Hidden entries and the directory for build output are passed over; every
other entry that is no package is noted with the reason.
-/
namespace LintCorpus

def manifestName : Text := "Cargo.toml"

def targetDirectoryName : Text := "_target"

structure CatalogFault where
  root : Path
deriving DecidableEq

def CatalogFault.message (f : CatalogFault) : Text :=
  "crates root '" ++ f.root.toText ++ "' does not exist or is not a directory"

inductive Disqualification where
  | notADirectory
  | noManifest
  | unreadable (fault : Toml.LoadFault)
deriving DecidableEq

def Disqualification.message : Disqualification → Text
  | .notADirectory => "not a directory"
  | .noManifest => "no " ++ manifestName
  | .unreadable fault => "unreadable " ++ manifestName ++ ": " ++ fault.message

structure Skipped where
  name : Text
  reason : Disqualification
deriving DecidableEq

def Skipped.warning (s : Skipped) : Message :=
  ⟨.warn, s.name ++ " - skipped: " ++ s.reason.message⟩

/-- The packages below a root, the entries that were skipped, and what ended the search before its
time, if anything did. -/
structure Catalog where
  root : Path
  packages : List Package := []
  skipped : List Skipped := []
  fault : Option FileFault := none

namespace Catalog

def isPassedOver (name : Text) : Bool := name = targetDirectoryName || name.startsWith "."

/-- What keeps a manifest from being read, unless nobody expects it. -/
def manifestReason : Toml.LoadFault → Except FileFault Disqualification
  | .file (.refused error path) => .ok (.unreadable (.file (.refused error path)))
  | .file fault => .error fault
  | .document fault => .ok (.unreadable (.document fault))

/-- Why what stands at a path is no package, if it is none. -/
def disqualify (t : FileTree) (entry : Path) : Except FileFault (Option Disqualification) := do
  if !(← t.isDirectory entry) then return some .notADirectory
  let manifest := entry.child manifestName
  if !(← t.isFile manifest) then return some .noManifest
  match Toml.load t manifest with
  | .ok _ => return none
  | .error fault => return some (← manifestReason fault)

def add (t : FileTree) (c : Catalog) (name : Text) : Catalog :=
  if c.fault.isSome then c
  else
    let entry := c.root.child name
    match disqualify t entry with
    | .error fault => { c with fault := some fault }
    | .ok (some reason) => { c with skipped := c.skipped ++ [⟨name, reason⟩] }
    | .ok none => { c with packages := c.packages ++ [{ name, path := entry }] }

def candidates (names : List Text) : List Text :=
  (Text.sort names).filter fun name => !isPassedOver name

def search (t : FileTree) (root : Path) : Except (Failure CatalogFault) Catalog := do
  let root := root.absolute t.workingDirectory
  let isDirectory ← (t.isDirectory root).mapError Failure.aborted
  if !isDirectory then .error (.reported ⟨root⟩)
  else
    let names ← (t.list root).mapError Failure.aborted
    return (candidates names).foldl (add t) { root }

def warnings (c : Catalog) : List Message := c.skipped.map Skipped.warning

end Catalog
end LintCorpus
