import LintCorpus.Text.Blank
import LintCorpus.Text.CellWidth

/-!
Messages for the person at the terminal. Each has a level, shown by a symbol when symbols are
wanted. Control codes that would move the cursor are dropped and tabs become spaces.
-/
namespace LintCorpus

inductive Level where
  | info
  | ok
  | warn
  | fail
deriving DecidableEq, Repr

structure Message where
  level : Level
  text : Text
deriving DecidableEq

def Level.symbol : Level → Text
  | .info => "ℹ️ "
  | .ok => "✅ "
  | .warn => "⚠️ "
  | .fail => "❌ "

def Level.named : List (Text × Level) :=
  [("info", .info), ("ok", .ok), ("warn", .warn), ("fail", .fail)]

namespace Console

/-- How wide a terminal is taken to be. -/
def columns : Nat := 80

def tabStop : Nat := 8

/-- Bell, backspace, vertical tab, form feed and carriage return. -/
def isDropped (c : Nat) : Bool :=
  c == 0x07 || c == 0x08 || c == 0x0B || c == 0x0C || c == 0x0D

/-- Each piece but the last with a space and filled up to the next tab stop. -/
def fillTabs : List Text → Text
  | [] => []
  | [last] => last
  | piece :: rest =>
    let spaced := piece ++ [0x20]
    let past := spaced.width % tabStop
    spaced ++ Text.copies (if past = 0 then 0 else tabStop - past) 0x20 ++ fillTabs rest

/-- The line without blanks at its end that are past the last column. -/
def crop (line : Text) : Text :=
  let excess := line.length - columns
  let blanks := line.length - line.stripEnd.length
  line.take (line.length - min blanks excess)

def displayLine (line : Text) : Text := crop (fillTabs (Text.splitAt 0x09 line)) ++ [0x0A]

def display (t : Text) : Text :=
  (Text.splitAt 0x0A (t.filter fun c => !isDropped c)).flatMap displayLine

end Console

def Message.display (m : Message) (emoji : Bool) : Text :=
  Console.display ((if emoji then m.level.symbol else []) ++ m.text)

def Message.displayAll (ms : List Message) (emoji : Bool) : Text := ms.flatMap (·.display emoji)

end LintCorpus
