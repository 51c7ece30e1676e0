import LintCorpus.Dict
import LintCorpus.Files.Fault
import LintCorpus.Number.Binary64
import LintCorpus.Text.SystemText

/-!
Starting programs. A program is named by an absolute path or by a name that the system looks up.
What a program does is not known here: a launcher answers a request with what it captured, or says
why nothing was started.
-/
namespace LintCorpus

inductive StartFault where
  | noCommand
  | notOnPath (name : Text)
  | badVariable
  | file (fault : FileFault)
deriving DecidableEq

namespace StartFault

def message : StartFault → Text
  | .noCommand => "subprocess command requires at least one argument"
  | .notOnPath name => "Executable '" ++ name ++ "' was not found on PATH"
  | .badVariable => "illegal environment variable name"
  | .file fault => fault.message

def isMissing : StartFault → Bool
  | .notOnPath _ => true
  | .file (.refused .notFound _) => true
  | _ => false

end StartFault

/-- A command with the place it is to run in, variables on top of those around it, and how many
seconds it may take. -/
structure LaunchRequest where
  command : List Text
  directory : Option Path := none
  environment : Dict Text := .empty
  timeout : Option Binary64 := none

/-- What was captured of a program: the command with the program's path, the code it ended with
unless its time ran out, what it wrote, and when it ran, in microseconds. -/
structure Capture where
  command : List Text
  returncode : Option Int
  stdout : Bytes := []
  stderr : Bytes := []
  timedOut : Bool := false
  startedAt : Int := 0
  finishedAt : Int := 0

def Capture.isSignalled (c : Capture) : Bool := c.returncode.any (· < 0)

abbrev Launcher := LaunchRequest → Except StartFault Capture

namespace LaunchRequest

/-- The command with the path of its program; `find` looks a name up. -/
def resolve (find : Text → Option Text) : List Text → Except StartFault (List Text)
  | [] => .error .noCommand
  | program :: arguments =>
    let path := Path.ofText program
    if path.isAbsolute then .ok (path.toText :: arguments)
    else
      match find program with
      | some found => .ok (found :: arguments)
      | none => .error (.notOnPath program)

def checkEncoding (t : Text) : Except StartFault Unit :=
  match SystemText.encode t with
  | .error fault => .error (.file (.unencodable fault))
  | .ok _ => .ok ()

def checkNull (t : Text) : Except StartFault Unit :=
  if List.elem 0 t then .error (.file .nullCharacter) else .ok ()

def checkArgument (t : Text) : Except StartFault Unit := do
  checkEncoding t
  checkNull t

def checkSetting (setting : Text × Text) : Except StartFault Unit := do
  checkEncoding setting.1
  if List.elem '='.toNat setting.1 then .error .badVariable else checkEncoding setting.2

/-- Refuses a request that the system cannot be asked: first for its variables, then for its
arguments and the place it is to run in. -/
def check (r : LaunchRequest) : Except StartFault Unit := do
  r.environment.entries.forM checkSetting
  r.command.forM checkArgument
  (r.environment.keys ++ r.environment.values).forM checkNull
  (r.directory.map Path.toText).forM checkArgument

def handed (r : LaunchRequest) : List Text :=
  r.environment.entries.map (fun s => (s.1 ++ "=" ++ s.2 : Text)) ++ r.command

def sizeOf (t : Text) : Nat := (SystemText.bytes t).length + 1

def textLimit : Nat := 131072

/-- How many bytes there may be in all, eight of them for the place of each text. -/
def totalLimit : Nat := 2097152

def hasRoom (r : LaunchRequest) : Bool :=
  let sizes := r.handed.map sizeOf
  sizes.all (fun size => decide (size ≤ textLimit)) &&
    decide (sizes.foldl (fun total size => total + size + 8) 0 ≤ totalLimit)

def checkRoom (r : LaunchRequest) : Except StartFault Unit :=
  if r.hasRoom then .ok () else .error (.file (.refused .argumentsTooLong r.command.head?))

end LaunchRequest
end LintCorpus
