import LintCorpus.CommandLine.Program

/-!
The program at the terminal. It takes a picture of the files that its arguments name, lets the
command work on the picture, and then writes the answer, what the command told, and the files that
it changed. It starts no other programs, so a command that needs one reports it as missing.
-/
namespace LintCorpus.Terminal

def depth : Nat := 16

/-- The place below the working directory or the root that a path names. -/
def placeOf (workingDirectory p : Path) : List Text := (p.absolute workingDirectory).parts

def addBelow (t : FileTree) (p : Path) : Nat → IO FileTree
  | 0 => return t
  | levels + 1 => do
    let onDisk := (← IO.currentDir) / p.toText.toString
    let place := placeOf t.workingDirectory p
    if ← onDisk.isDir then
      let mut picture := t.plant place none
      for entry in ← onDisk.readDir do
        picture ← addBelow picture (p.child entry.fileName) levels
      return picture
    else if ← onDisk.pathExists then
      return t.plant place (some (← IO.FS.readBinFile onDisk).toList)
    else return t

/-- What an argument may name: itself, or the value attached to an option. -/
def named (argument : Text) : List Text :=
  let (_, attached) := CommandLine.splitAttached argument
  if argument.startsWith "-" then attached.toList else [argument]

def picture (arguments : List Text) : IO FileTree := do
  let workingDirectory := Path.ofText (← IO.currentDir).toString
  let empty : FileTree := { workingDirectory, clock := 1 }
  let mut t := empty.plant workingDirectory.parts none
  for name in RunOptions.defaultConfigName :: arguments.flatMap named do
    t ← addBelow t (Path.ofText name) depth
  return t

def writeBack (before after : FileTree) : IO Unit := do
  for (place, node) in after.nodes do
    let onDisk := (← IO.currentDir) / ("/" ++ Text.join "/" place).toString
    if (before.node? place).isNone || node.modified ≠ 0 then
      match node.content with
      | .directory => unless ← onDisk.isDir do IO.FS.createDir onDisk
      | .file bytes => IO.FS.writeBinFile onDisk ⟨bytes.toArray⟩

/-- Answers every request with a missing program. -/
def noPrograms : Launcher := fun r => do
  let command ← LaunchRequest.resolve (fun _ => none) r.command
  .error (.file (.refused .notFound command.head?))

def misuseStatus : Nat := 2

def close : CommandLine.Ending → Text × Nat
  | .exited status => ([], status)
  | .aborted fault => (fault.message ++ "\n", 1)
  | .misused fault => ("Error: " ++ fault.message ++ "\n", misuseStatus)

end LintCorpus.Terminal

open LintCorpus Terminal in
def main (arguments : List String) : IO UInt32 := do
  let texts := arguments.map Text.ofString
  let before ← picture texts
  let done := CommandLine.run { launch := noPrograms } texts { files := before }
  writeBack before done.session.files
  let (last, status) := close done.ending
  IO.print done.session.output.toString
  IO.eprint (done.session.log ++ last).toString
  return status.toUInt32
