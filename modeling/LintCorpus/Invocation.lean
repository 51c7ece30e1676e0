import LintCorpus.Number.Binary64
import LintCorpus.Text.Blank
import LintCorpus.Text.Lines
import LintCorpus.Text.Utf8

/-!
One run of the linter on one package: what it wrote, how it ended, and how it is classed.
-/
namespace LintCorpus

/-- What a run looks for: findings, or attributes that allow a forbidden lint. -/
inductive InvocationMode where
  | lint
  | allowCheck
deriving DecidableEq, Repr, Inhabited

namespace InvocationMode

def name : InvocationMode → Text
  | .lint => "lint"
  | .allowCheck => "allow_check"

end InvocationMode

inductive Status where
  | success
  | lintFindings
  | compileError
  | timeout
  | crashed
deriving DecidableEq, Repr, Inhabited

namespace Status

def all : List Status := [.success, .lintFindings, .compileError, .timeout, .crashed]

def name : Status → Text
  | .success => "success"
  | .lintFindings => "lint_findings"
  | .compileError => "compile_error"
  | .timeout => "timeout"
  | .crashed => "crashed"

def label : Status → Text
  | .success => "success"
  | .lintFindings => "lint findings"
  | .compileError => "compile error"
  | .timeout => "timeout"
  | .crashed => "crashed"

def brokeBuild : Status → Bool
  | .compileError | .timeout | .crashed => true
  | .success | .lintFindings => false

end Status

/-- A finished run. Times are microseconds; a run that did not exit by itself has no code. -/
structure Invocation where
  package : Text
  command : List Text
  mode : InvocationMode := .lint
  startedAt : Int := 0
  finishedAt : Int := 0
  returncode : Option Int
  status : Status
  stdout : Bytes := []
  stderr : Bytes := []

/-- The last `count` items; all for zero, and all but the first `-count` for a negative one. -/
def takeEnd {α : Type} (count : Int) (xs : List α) : List α :=
  if 0 < count then xs.drop (xs.length - count.toNat) else xs.drop count.natAbs

namespace Invocation

/-- How long the run took, in seconds; never negative. -/
def duration (i : Invocation) : Binary64 :=
  let elapsed := i.finishedAt - i.startedAt
  if 0 < elapsed then Binary64.ofRatio elapsed 1000000 else .zero false

def isBlankBytes (bytes : Bytes) : Bool :=
  bytes.all fun b => (0x09 ≤ b && b ≤ 0x0D) || b == 0x20

/-- What is quoted of a run: its error output, or its output when the former is blank. -/
def payload (i : Invocation) : Bytes := if isBlankBytes i.stderr then i.stdout else i.stderr

def tail (i : Invocation) (maxLines maxChars : Int) : Text :=
  let lines := (Utf8.decode i.payload).stripEnd.lines
  let t := Text.join [0x0A] (takeEnd maxLines lines)
  if maxChars < t.length then takeEnd maxChars t else t

def tailLines : Int := 20

def tailChars : Int := 2000

def defaultTail (i : Invocation) : Text := i.tail tailLines tailChars

end Invocation
end LintCorpus
