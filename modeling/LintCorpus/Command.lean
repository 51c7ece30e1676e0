import LintCorpus.Launch
import LintCorpus.Text.Lines

/-!
Helper commands: run to their end, with their output as text. Ending with another code than zero
is a fault.
-/
namespace LintCorpus

structure Completed where
  command : List Text
  returncode : Int
  stdout : Text
  stderr : Text
deriving DecidableEq

inductive CommandFault where
  | start (fault : StartFault)
  | undecodable (fault : Utf8.Malformed)
  | failed (completed : Completed)
deriving DecidableEq

def CommandFault.message : CommandFault → Text
  | .start fault => fault.message
  | .undecodable fault => fault.message
  | .failed c =>
    let stderr : Text := if c.stderr.isEmpty then "<none>" else c.stderr
    "Command '" ++ c.command.headD [] ++ "' exited with status " ++ Text.ofInt c.returncode ++
      ". stderr: " ++ stderr

namespace Command

/-- Output as text, with line feeds for all line ends. -/
def outputText (bytes : Bytes) : Except CommandFault Text :=
  match Utf8.decodeStrict bytes with
  | .ok t => .ok t.normalizeNewlines
  | .error fault => .error (.undecodable fault)

def judge (c : Capture) : Except CommandFault Completed := do
  let stdout ← outputText c.stdout
  let stderr ← outputText c.stderr
  let completed : Completed := ⟨c.command, c.returncode.getD 0, stdout, stderr⟩
  if completed.returncode = 0 then return completed else .error (.failed completed)

def run (launch : Launcher) (command : List Text) : Except CommandFault Completed := do
  let captured ← (launch { command }).mapError CommandFault.start
  judge captured

end Command
end LintCorpus
