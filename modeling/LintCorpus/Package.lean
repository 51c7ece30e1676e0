import LintCorpus.Path

/-!
Packages of the corpus and whether they can be built.
-/
namespace LintCorpus

inductive BuildState where
  | unknown
  | buildable
  | brokenBuild
deriving DecidableEq, Repr, Inhabited

namespace BuildState

def all : List BuildState := [.unknown, .buildable, .brokenBuild]

def name : BuildState → Text
  | .unknown => "unknown"
  | .buildable => "buildable"
  | .brokenBuild => "broken_build"

end BuildState

structure Package where
  name : Text
  path : Path
  state : BuildState := .unknown
deriving DecidableEq

end LintCorpus
