import LintCorpus.Json.Limits
import LintCorpus.Path
import LintCorpus.Text.Quoted
import LintCorpus.Text.Utf8

/-!
What can go wrong with a file or a program's output. Either the system refuses an operation, or the
path or the content cannot be converted between text and bytes, or the content is beyond the limits
of what can be read.
-/
namespace LintCorpus

inductive SystemError where
  | notFound
  | argumentsTooLong
  | permissionDenied
  | alreadyExists
  | notADirectory
  | isADirectory
  | nameTooLong
deriving DecidableEq, Repr

namespace SystemError

def code : SystemError → Nat
  | .notFound => 2
  | .argumentsTooLong => 7
  | .permissionDenied => 13
  | .alreadyExists => 17
  | .notADirectory => 20
  | .isADirectory => 21
  | .nameTooLong => 36

def description : SystemError → Text
  | .notFound => "No such file or directory"
  | .argumentsTooLong => "Argument list too long"
  | .permissionDenied => "Permission denied"
  | .alreadyExists => "File exists"
  | .notADirectory => "Not a directory"
  | .isADirectory => "Is a directory"
  | .nameTooLong => "File name too long"

def message (e : SystemError) : Text := "[Errno " ++ Text.ofNat e.code ++ "] " ++ e.description

end SystemError

/-- What went wrong with a file or an output. A refusal says which file was meant unless only its
time was to be changed. -/
inductive FileFault where
  | refused (error : SystemError) (path : Option Text)
  | nullCharacter
  | undecodable (fault : Utf8.Malformed)
  | unencodable (fault : Utf8.Unencodable)
  | unreadable (excess : Json.Excess)
deriving DecidableEq

namespace FileFault

def message : FileFault → Text
  | .refused error none => error.message
  | .refused error (some path) => error.message ++ ": " ++ path.quoted
  | .nullCharacter => "embedded null byte"
  | .undecodable fault => fault.message
  | .unencodable fault => fault.message
  | .unreadable excess => excess.message

end FileFault

/-- Why something cannot be done: a fault that its caller expects and reports, or one that nobody
expects and that ends the program. -/
inductive Failure (ε : Type) where
  | reported (fault : ε)
  | aborted (fault : FileFault)
deriving DecidableEq

namespace Failure

variable {ε δ : Type}

def mapReported (f : ε → δ) : Failure ε → Failure δ
  | .reported fault => .reported (f fault)
  | .aborted fault => .aborted fault

/-- A refusal of the system is reported, anything else ends the program. -/
def ofFile (report : FileFault → ε) : FileFault → Failure ε
  | .refused error path => .reported (report (.refused error path))
  | fault => .aborted fault

end Failure
end LintCorpus
