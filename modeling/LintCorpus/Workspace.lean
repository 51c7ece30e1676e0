import LintCorpus.Command
import LintCorpus.LintName
import LintCorpus.Toml.Load

/-!
The workspace that the linter is built from. It names a toolchain; its programs are run through
the build tool.
-/
namespace LintCorpus

inductive WorkspaceFault where
  | missing (path : Path)
  | unreadable (file : Path) (fault : Toml.LoadFault)
  | noChannel (file : Path)
  | noToolchain (path : Path)
  | noBuildTool (fault : StartFault)
  | buildFailed (stderr : Text)
  | listFailed (fault : CommandFault)
  | invalidLint (name : Text)
  | unknownLint (name : Text)
deriving DecidableEq

def WorkspaceFault.message : WorkspaceFault → Text
  | .missing path => "Source path `" ++ path.toText ++ "` does not exist"
  | .unreadable file fault =>
    "Failed to read toolchain file '" ++ file.toText ++ "': " ++ fault.message
  | .noChannel file => "Toolchain file '" ++ file.toText ++ "' does not declare [toolchain] channel"
  | .noToolchain path => "'" ++ path.toText ++ "' is not a linter workspace directory"
  | .noBuildTool fault => fault.message
  | .buildFailed stderr => "Failed to build the linter\nstderr: " ++ stderr
  | .listFailed fault => "Command to list lint names failed: " ++ fault.message
  | .invalidLint name => "Invalid lint name: `" ++ name ++ "`"
  | .unknownLint name => "Lints not found: `" ++ name ++ "`"

structure Workspace where
  path : Path
  channel : Text
deriving DecidableEq

inductive LinterProgram where
  | cargoClippy
  | clippyDriver
deriving DecidableEq, Repr

def LinterProgram.name : LinterProgram → Text
  | .cargoClippy => "cargo-clippy"
  | .clippyDriver => "clippy-driver"

def buildTool : Text := "cargo"

namespace Workspace

/-- Files that may name the toolchain, the first one that is there counts. -/
def toolchainFiles : List Text := ["rust-toolchain", "rust-toolchain.toml"]

def declaredChannel? (d : Members) : Option Text :=
  match (d.field "toolchain").asMembers.field "channel" with
  | .text channel => if channel.strip.isEmpty then none else some channel.strip
  | _ => none

def channelIn (t : FileTree) (file : Path) : Except (Failure WorkspaceFault) Text := do
  let d ← (Toml.load t file).mapError (Toml.LoadFault.toFailure (WorkspaceFault.unreadable file))
  match declaredChannel? d with
  | some channel => return channel
  | none => .error (.reported (.noChannel file))

def firstChannel (t : FileTree) (path : Path) : List Path → Except (Failure WorkspaceFault) Text
  | [] => .error (.reported (.noToolchain path))
  | file :: rest => do
    if ← (t.isFile file).mapError Failure.aborted then channelIn t file
    else firstChannel t path rest

def readChannel (t : FileTree) (path : Path) : Except (Failure WorkspaceFault) Text :=
  firstChannel t path (toolchainFiles.map path.child)

def manifest (w : Workspace) : Path := w.path.child "Cargo.toml"

def toolchainArgument (w : Workspace) : Text := "+" ++ w.channel

def manifestArgument (w : Workspace) : Text := "--manifest-path=" ++ w.manifest.toText

/-- The command that runs a program, up to where the program's own arguments begin. -/
def command (w : Workspace) (program : LinterProgram) : List Text :=
  [buildTool, w.toolchainArgument, "--quiet", "run", w.manifestArgument, "--release", "--bin",
    program.name, "--"]

def buildCommand (w : Workspace) : List Text :=
  [buildTool, w.toolchainArgument, "build", w.manifestArgument, "--release"]

/-- The failure that a failed command amounts to. A program that is missing or that fails is
reported, anything else ends the program. -/
def commandFailure (report : CommandFault → WorkspaceFault) :
    CommandFault → Failure WorkspaceFault
  | .start (.file (.refused .notFound path)) =>
    .reported (report (.start (.file (.refused .notFound path))))
  | .start (.file fault) => .aborted fault
  | .undecodable fault => .aborted (.undecodable fault)
  | fault => .reported (report fault)

def buildFault : CommandFault → WorkspaceFault
  | .start fault => .noBuildTool fault
  | .failed completed => .buildFailed completed.stderr
  | .undecodable fault => .buildFailed fault.message

def build (launch : Launcher) (w : Workspace) : Except (Failure WorkspaceFault) Unit :=
  match Command.run launch w.buildCommand with
  | .ok _ => .ok ()
  | .error fault => .error (commandFailure buildFault fault)

def helpArguments : List Text := ["-W", "help"]

def lints (launch : Launcher) (w : Workspace) : Except (Failure WorkspaceFault) (List Text) :=
  match Command.run launch (w.command .clippyDriver ++ helpArguments) with
  | .ok completed => .ok (LintName.ofHelp completed.stdout.lines)
  | .error fault => .error (commandFailure WorkspaceFault.listFailed fault)

/-- The rule that a typed name stands for, if the linter knows it. -/
def resolveLint (launch : Launcher) (w : Workspace) (name : Text) :
    Except (Failure WorkspaceFault) Text :=
  match LintName.toRule? name with
  | none => .error (.reported (.invalidLint name))
  | some rule => do
    let known ← w.lints launch
    if known.contains (LintName.listed rule) then return rule
    else .error (.reported (.unknownLint name))

def locate (t : FileTree) (path : Path) : Except (Failure WorkspaceFault) Workspace := do
  let path := path.absolute t.workingDirectory
  if ← (t.holds path).mapError Failure.aborted then
    return ⟨path, ← readChannel t path⟩
  else .error (.reported (.missing path))

def prepare (t : FileTree) (launch : Launcher) (path : Path) (shouldBuild : Bool) :
    Except (Failure WorkspaceFault) Workspace := do
  let w ← locate t path
  if shouldBuild then w.build launch
  return w

end Workspace
end LintCorpus
