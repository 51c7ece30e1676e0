import LintCorpus.Schema.Basic
import LintCorpus.Text.Quoted
import LintCorpus.Text.Utf8

/-!
Why nothing is assigned to a name. A refusal also tells the kind of the thing whose part was to be
changed.
-/
namespace LintCorpus

/-- Why nothing is assigned to a name. Either the value or the name has faults that can be listed,
or what stands under the name cannot be set. -/
inductive AssignFault where
  | invalid (faults : List Located)
  | unencodable (fault : Utf8.Unencodable)
  | noMember (name : Text)
  | noPart (name : Text)
  | noSetter (name : Text)
  | notWritable (name : Text)
  | readOnly (name : Text)
  | ofChoice (name : Text)
  | ofRow
  | notADictionary (given : Text)
  | notAKind (given : Text)
deriving DecidableEq

namespace AssignFault

def frozen (name : Text) : AssignFault := .invalid [⟨[.member name], .frozen⟩]

def unknown (name : Text) : AssignFault := .invalid [⟨[.member name], .unknownAttribute name⟩]

def isAboutType : AssignFault → Bool
  | .notADictionary _ | .notAKind _ => true
  | _ => false

def message (kind : Text) : AssignFault → Text
  | .invalid _ => []
  | .unencodable fault => fault.message
  | .noMember name => kind.quoted ++ " object has no attribute " ++ name.quoted
  | .noPart name => "'" ++ kind ++ "' object has no attribute '" ++ name ++ "'"
  | .noSetter name => "property '" ++ name ++ "' of '" ++ kind ++ "' object has no setter"
  | .notWritable name =>
    "attribute '" ++ name ++ "' of '" ++ kind ++ "' objects is not writable"
  | .readOnly name => "'" ++ kind ++ "' object attribute '" ++ name ++ "' is read-only"
  | .ofChoice name => "<enum 'Enum'> cannot set attribute '" ++ name ++ "'"
  | .ofRow => "can't set attribute"
  | .notADictionary given => "__dict__ must be set to a dictionary, not a '" ++ given ++ "'"
  | .notAKind given => "__class__ must be set to a class, not '" ++ given ++ "' object"

end AssignFault

structure Refusal where
  kind : Text
  fault : AssignFault
deriving DecidableEq

def Refusal.message (r : Refusal) : Text := r.fault.message r.kind

end LintCorpus
