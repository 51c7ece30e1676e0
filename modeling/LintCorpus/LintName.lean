import LintCorpus.Record
import LintCorpus.Text.Blank
import LintCorpus.Text.CaseFold

/-!
Names of lints: as people type them, as findings carry them, and as the linter lists them.
-/
namespace LintCorpus.LintName

def isNameCharacter (c : Nat) : Bool :=
  (0x61 ≤ c && c ≤ 0x7A) || (0x41 ≤ c && c ≤ 0x5A) || (0x30 ≤ c && c ≤ 0x39) ||
    c == '_'.toNat || c == '-'.toNat

/-- The rule that a typed name stands for: small letters and low lines, without the tool. -/
def toRule? (name : Text) : Option Text :=
  let bare := Text.removeStart name.strip.foldCase Record.toolPrefix
  if !bare.isEmpty && bare.all isNameCharacter then
    some (Text.replace '-'.toNat '_'.toNat bare)
  else none

/-- The name under which the linter lists a rule. -/
def listed (rule : Text) : Text := Record.toolPrefix ++ Text.replace '_'.toNat '-'.toNat rule

def lintsHeader : Text := "Lint checks provided by plugins"

def groupsHeader : Text := "Lint groups provided by plugins"

def onLine? (line : Text) : Option Text :=
  line.words.head?.filter fun word => word.startsWith Record.toolPrefix

/-- The lints that lines list, once their header has been met or not. -/
def collect (inside : Bool) : List Text → List Text
  | [] => []
  | line :: rest =>
    if line.startsWith lintsHeader then collect true rest
    else if line.startsWith groupsHeader then []
    else if inside then (onLine? line).toList ++ collect inside rest
    else collect inside rest

def ofHelp (lines : List Text) : List Text := Text.sort (collect false lines).eraseDups

end LintCorpus.LintName
