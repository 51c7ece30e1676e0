import LintCorpus.Files.Fault
import LintCorpus.Text.SystemText
import LintCorpus.Text.Lines

/-!
Files and directories as a tree of finitely many places. A place is the list of names that leads to
it from the root. Looking a path up follows its components one by one, so a double dot leaves the
directory it is met in, and a file on the way is an error. Permissions and links are left out: every
place may be read and changed, and no two names lead to the same file.
-/
namespace LintCorpus

inductive Content where
  | file (bytes : Bytes)
  | directory
deriving DecidableEq

structure Node where
  content : Content
  modified : Nat := 0
deriving DecidableEq

/-- The places in use, apart from the root, with what stands there; where relative paths begin; the
time; and when the root was last changed. -/
structure FileTree where
  nodes : List (List Text × Node) := []
  workingDirectory : Path
  clock : Nat := 0
  rootModified : Nat := 0

namespace FileTree

def nameLimit : Nat := 255

def pathLimit : Nat := 4095

def isTooLong (name : Text) : Bool := nameLimit < (SystemText.bytes name).length

def checkLength (p : Path) : Except SystemError Unit :=
  if pathLimit < (SystemText.bytes p.toText).length then .error .nameTooLong else .ok ()

def entryPlace (directory : List Text) (name : Text) : List Text :=
  directory ++ [SystemText.canonical name]

def node? (t : FileTree) (place : List Text) : Option Node :=
  if place.isEmpty then some ⟨.directory, t.rootModified⟩ else t.nodes.lookup place

def isDirectoryAt (t : FileTree) (place : List Text) : Bool :=
  (t.node? place).any fun n => n.content == .directory

def walk (t : FileTree) : List Text → List Text → Except SystemError (List Text)
  | here, [] => .ok here
  | here, part :: rest =>
    if !t.isDirectoryAt here then .error .notADirectory
    else if part = ".." then walk t here.dropLast rest
    else if isTooLong part then .error .nameTooLong
    else if (t.node? (entryPlace here part)).isNone then .error .notFound
    else walk t (entryPlace here part) rest

def start (t : FileTree) (p : Path) : List Text :=
  if p.isAbsolute then [] else t.workingDirectory.parts

def locate (t : FileTree) (p : Path) : Except SystemError (List Text) := do
  checkLength p
  t.walk (t.start p) p.parts

/-- The place where a path leads to or where something new would be made. -/
def locateNew (t : FileTree) (p : Path) : Except SystemError (List Text) :=
  if p.parts.isEmpty || p.name = ".." then t.locate p
  else do
    checkLength p
    let directory ← t.walk (t.start p) p.parts.dropLast
    if !t.isDirectoryAt directory then .error .notADirectory
    else if isTooLong p.name then .error .nameTooLong
    else return entryPlace directory p.name

def checkPath (p : Path) : Except FileFault Unit :=
  match SystemText.encode p.toText with
  | .error fault => .error (.unencodable fault)
  | .ok bytes => if bytes.contains 0 then .error .nullCharacter else .ok ()

def naming {α : Type} (p : Path) (result : Except SystemError α) : Except FileFault α :=
  result.mapError fun error => .refused error (some p.toText)

/-- Whether a path leads to something that `test` holds of. Only what is too long is an
error. -/
def leadsTo (t : FileTree) (p : Path) (test : Content → Bool) : Except FileFault Bool :=
  match checkPath p with
  | .error _ => .ok false
  | .ok () =>
    match t.locate p with
    | .ok place => .ok ((t.node? place).any fun n => test n.content)
    | .error .nameTooLong => .error (.refused .nameTooLong (some p.toText))
    | .error _ => .ok false

def holds (t : FileTree) (p : Path) : Except FileFault Bool := t.leadsTo p fun _ => true

def isFile (t : FileTree) (p : Path) : Except FileFault Bool := t.leadsTo p fun c => c != .directory

def isDirectory (t : FileTree) (p : Path) : Except FileFault Bool :=
  t.leadsTo p fun c => c == .directory

/-- The names in a directory, in no particular order. -/
def names (t : FileTree) (place : List Text) : List Text :=
  t.nodes.filterMap fun entry =>
    match entry.1.getLast? with
    | some name => if entry.1.dropLast = place then some name else none
    | none => none

def list (t : FileTree) (p : Path) : Except FileFault (List Text) := do
  checkPath p
  let place ← naming p (t.locate p)
  if t.isDirectoryAt place then return t.names place
  else .error (.refused .notADirectory (some p.toText))

def read (t : FileTree) (p : Path) : Except FileFault Bytes := do
  checkPath p
  let place ← naming p (t.locate p)
  match t.node? place with
  | some ⟨.file bytes, _⟩ => return bytes
  | _ => .error (.refused .isADirectory (some p.toText))

/-- The text of a file, with line feeds for all line ends. -/
def readText (t : FileTree) (p : Path) : Except FileFault Text := do
  let bytes ← t.read p
  match Utf8.decodeStrict bytes with
  | .ok content => return content.normalizeNewlines
  | .error fault => .error (.undecodable fault)

def put (t : FileTree) (place : List Text) (node : Node) : FileTree :=
  if t.nodes.any fun entry => entry.1 == place then
    { t with nodes := t.nodes.map fun entry => if entry.1 = place then (place, node) else entry }
  else { t with nodes := t.nodes ++ [(place, node)] }

/-- Fills a place, with a directory unless there is a content for a file, and makes the directories
above it as far as they are missing. A directory does not take the place of anything. Nothing made
so counts as changed. -/
def plant (t : FileTree) (names : List Text) (content : Option Bytes) : FileTree :=
  let place := names.map SystemText.canonical
  let ensured := ((List.range place.length).map place.take).foldl
    (fun t above => if (t.node? above).isSome then t else t.put above ⟨.directory, 0⟩) t
  match content with
  | some bytes => ensured.put place ⟨.file bytes, 0⟩
  | none => if (ensured.node? place).isSome then ensured else ensured.put place ⟨.directory, 0⟩

def touch (t : FileTree) (p : Path) : Except FileFault FileTree := do
  checkPath p
  let place ← (t.locate p).mapError fun error => FileFault.refused error none
  match t.node? place with
  | some node =>
    return if place.isEmpty then { t with rootModified := t.clock }
      else t.put place { node with modified := t.clock }
  | none => return t

def write (t : FileTree) (p : Path) (bytes : Bytes) : Except FileFault FileTree := do
  checkPath p
  let place ← naming p (t.locateNew p)
  if t.isDirectoryAt place then .error (.refused .isADirectory (some p.toText))
  else return t.put place ⟨.file bytes, t.clock⟩

def makeDirectory (t : FileTree) (p : Path) : Except FileFault FileTree := do
  checkPath p
  let place ← naming p (t.locateNew p)
  if (t.node? place).isSome then .error (.refused .alreadyExists (some p.toText))
  else return t.put place ⟨.directory, t.clock⟩

def ensureDirectory (t : FileTree) (p : Path) : Except FileFault FileTree :=
  match t.makeDirectory p with
  | .ok made => .ok made
  | .error (.refused .notFound path) => .error (.refused .notFound path)
  | .error (.refused error path) => do
    if ← t.isDirectory p then return t else .error (.refused error path)
  | .error fault => .error fault

def ensureDirectories (t : FileTree) (p : Path) : Except FileFault FileTree :=
  match t.ensureDirectory p with
  | .error (.refused .notFound path) =>
    if p.parts = [] then .error (.refused .notFound path)
    else do
      let above ← ensureDirectories t p.parent
      above.ensureDirectory p
  | result => result
termination_by p.parts.length
decreasing_by
  have some : 0 < p.parts.length := List.length_pos_iff.mpr ‹¬p.parts = []›
  simp only [Path.parent, List.length_dropLast]
  omega

/-- Writes a text. The file is emptied first, so it is there even if the text has no bytes. -/
def writeText (t : FileTree) (p : Path) (content : Text) : FileTree × Except FileFault Unit :=
  match t.write p [] with
  | .error fault => (t, .error fault)
  | .ok emptied =>
    match Utf8.encodeStrict content with
    | .error fault => (emptied, .error (.unencodable fault))
    | .ok bytes =>
      match t.write p bytes with
      | .ok written => (written, .ok ())
      | .error fault => (emptied, .error fault)

end FileTree
end LintCorpus
