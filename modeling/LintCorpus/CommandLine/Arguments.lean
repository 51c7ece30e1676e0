import LintCorpus.Files.Tree
import LintCorpus.Number.Numeral
import LintCorpus.Number.Shortest
import LintCorpus.Text.Similarity

/-!
The arguments of a command. Options may stand anywhere before a double hyphen; the value of an
option follows an equals sign or is the next argument. An option given twice has its last value.
Values are looked at in the order in which options first came in, then the other arguments. A
command that is asked for help looks at no values, but at the names of all options.
-/
namespace LintCorpus.CommandLine

inductive OptionKind where
  | flag
  | text
  | path
  | count (minimum : Int)
  | seconds (minimum : Binary64)
deriving DecidableEq

structure OptionForm where
  long : Text
  short : Option Nat := none
  kind : OptionKind
deriving DecidableEq

inductive OptionValue where
  | flag
  | text (t : Text)
  | path (p : Path)
  | count (i : Int)
  | seconds (x : Binary64)
deriving DecidableEq

inductive UsageFault where
  | noSuchOption (name : Text) (similar : List Text)
  | missingValue (name : Text)
  | unexpectedValue (name : Text)
  | badValue (names : Text) (reason : Text)
  | missingArgument (name : Text)
  | extraArguments (arguments : List Text)
  | noSuchCommand (name : Text)
  | missingCommand
deriving DecidableEq

def suggestion : List Text → Text
  | [] => []
  | [name] => " Did you mean " ++ name ++ "?"
  | names => " (Possible options: " ++ Text.join ", " names ++ ")"

def UsageFault.message : UsageFault → Text
  | .noSuchOption name similar => "No such option: " ++ name ++ suggestion similar
  | .missingValue name => "Option " ++ name.quoted ++ " requires an argument."
  | .unexpectedValue name => "Option " ++ name.quoted ++ " does not take a value."
  | .badValue names reason => "Invalid value for " ++ names ++ ": " ++ reason
  | .missingArgument name => "Missing argument '" ++ name ++ "'."
  | .extraArguments arguments =>
    let noun : Text := if arguments.length = 1 then "argument" else "arguments"
    "Got unexpected extra " ++ noun ++ " (" ++ Text.join " " arguments ++ ")"
  | .noSuchCommand name => "No such command " ++ name.quoted ++ "."
  | .missingCommand => "Missing command."

/-- A value that cannot be used: a fault to report, or one that ends the program. -/
abbrev Parsing := Except (Failure UsageFault)

/-- Arguments taken apart: options with the texts of their values, and the others. -/
structure Scan where
  options : List (OptionForm × Text) := []
  others : List Text := []

namespace OptionForm

def shortName (c : Nat) : Text := [0x2D, c]

def names (o : OptionForm) : Text :=
  let all : List Text := o.long :: (o.short.map shortName).toList
  Text.join " / " (all.map fun (name : Text) => "'" ++ name ++ "'")

def takesValue (o : OptionForm) : Bool := o.kind != .flag

def pathValue (t : Text) : Parsing OptionValue :=
  match SystemText.encode t with
  | .error fault => .error (.aborted (.unencodable fault))
  | .ok _ =>
    if List.elem 0 t then .error (.aborted .nullCharacter) else .ok (.path (Path.ofText t))

def refuse (o : OptionForm) (reason : Text) : Parsing OptionValue :=
  .error (.reported (.badValue o.names reason))

def read (o : OptionForm) (t : Text) : Parsing OptionValue :=
  match o.kind with
  | .flag => .ok .flag
  | .text => .ok (.text t)
  | .path => pathValue t
  | .count minimum =>
    match t.toInt? with
    | none => o.refuse (t.quoted ++ " is not a valid integer range.")
    | some i =>
      if i < minimum then
        o.refuse (Text.ofInt i ++ " is not in the range x>=" ++ Text.ofInt minimum ++ ".")
      else .ok (.count i)
  | .seconds minimum =>
    match Binary64.ofText? t with
    | none => o.refuse (t.quoted ++ " is not a valid float range.")
    | some x =>
      if x.lt minimum then
        o.refuse (x.toText ++ " is not in the range x>=" ++ minimum.toText ++ ".")
      else .ok (.seconds x)

end OptionForm

def takeValue (o : OptionForm) (name : Text) (rest : List Text) :
    Except UsageFault ((OptionForm × Text) × List Text) :=
  match rest with
  | value :: after => .ok ((o, value), after)
  | [] => .error (.missingValue name)

def longOption (o : OptionForm) (attached : Option Text) (rest : List Text) :
    Except UsageFault ((OptionForm × Text) × List Text) :=
  match attached with
  | none => if o.takesValue then takeValue o o.long rest else .ok ((o, []), rest)
  | some value =>
    if o.takesValue then .ok ((o, value), rest) else .error (.unexpectedValue o.long)

/-- The options that letters after one hyphen stand for; the first one that takes a value takes
the letters after it. -/
def shortOptions (forms : List OptionForm) (given : List (OptionForm × Text)) (rest : List Text) :
    Text → Except UsageFault (List (OptionForm × Text) × List Text)
  | [] => .ok (given.reverse, rest)
  | c :: letters =>
    match forms.find? fun o => o.short == some c with
    | none => .error (.noSuchOption (OptionForm.shortName c) [])
    | some o =>
      if !o.takesValue then shortOptions forms ((o, []) :: given) rest letters
      else if letters.isEmpty then do
        let (option, after) ← takeValue o (OptionForm.shortName c) rest
        return ((option :: given).reverse, after)
      else .ok (((o, letters) :: given).reverse, rest)

def splitAttached (argument : Text) : Text × Option Text :=
  let name := argument.takeWhile (· != '='.toNat)
  match argument.drop name.length with
  | [] => (name, none)
  | _ :: value => (name, some value)

/-- The option that asks for help. The program and every command have it besides their own. -/
def helpForm : OptionForm := { long := "--help", kind := .flag }

def unknownOption (forms : List OptionForm) (name : Text) : UsageFault :=
  .noSuchOption name (name.closest (forms.map OptionForm.long))

def takeOptions (forms : List OptionForm) (argument : Text) (rest : List Text) :
    Except UsageFault (List (OptionForm × Text) × List Text) :=
  let (name, attached) := splitAttached argument
  match forms.find? fun o => o.long == name with
  | some o => do
    let (option, after) ← longOption o attached rest
    return ([option], after)
  | none =>
    if argument.startsWith "--" then .error (unknownOption forms name)
    else shortOptions forms [] rest (argument.drop 1)

def isOption (argument : Text) : Bool := argument.startsWith "-" && 1 < argument.length

/-- Takes arguments apart; every turn takes one. -/
def scanFrom (forms : List OptionForm) : Nat → Scan → List Text → Except UsageFault Scan
  | 0, s, _ => .ok s
  | _ + 1, s, [] => .ok s
  | fuel + 1, s, argument :: rest =>
    if argument = "--" then .ok { s with others := s.others ++ rest }
    else if isOption argument then do
      let (options, after) ← takeOptions forms argument rest
      scanFrom forms fuel { s with options := s.options ++ options } after
    else scanFrom forms fuel { s with others := s.others ++ [argument] } rest

def scan (forms : List OptionForm) (arguments : List Text) : Except UsageFault Scan :=
  scanFrom forms (arguments.length + 1) {} arguments

/-- Arguments understood. When they ask for help the rest of them does not matter. -/
structure Arguments where
  options : List (OptionForm × OptionValue) := []
  paths : List Path := []
  asksForHelp : Bool := false

namespace Arguments

/-- The last text given for each option, in the order in which options first came in. -/
def lastGiven (options : List (OptionForm × Text)) : List (OptionForm × Text) :=
  (options.map Prod.fst).eraseDups.filterMap fun o =>
    (options.reverse.find? fun given => given.1 == o)

def readPaths : List Text → List Text → Parsing (List Path)
  | [], [] => .ok []
  | [], extra => .error (.reported (.extraArguments extra))
  | name :: _, [] => .error (.reported (.missingArgument name))
  | _ :: names, argument :: rest => do
    match ← OptionForm.pathValue argument with
    | .path p => return p :: (← readPaths names rest)
    | _ => readPaths names rest

def parse (forms : List OptionForm) (names : List Text) (given : List Text) :
    Parsing Arguments := do
  let s ← (scan (forms ++ [helpForm]) given).mapError Failure.reported
  if s.options.any fun option => option.1 == helpForm then return { asksForHelp := true }
  let options ← (lastGiven s.options).mapM fun entry => do
    return (entry.1, ← entry.1.read entry.2)
  return { options, paths := ← readPaths names s.others }

def find? (a : Arguments) (long : Text) : Option OptionValue :=
  (a.options.find? fun entry => entry.1.long == long).map Prod.snd

def hasFlag (a : Arguments) (long : Text) : Bool := (a.find? long).isSome

def text? (a : Arguments) (long : Text) : Option Text :=
  match a.find? long with
  | some (.text t) => some t
  | _ => none

def path? (a : Arguments) (long : Text) : Option Path :=
  match a.find? long with
  | some (.path p) => some p
  | _ => none

def count? (a : Arguments) (long : Text) : Option Int :=
  match a.find? long with
  | some (.count i) => some i
  | _ => none

def seconds? (a : Arguments) (long : Text) : Option Binary64 :=
  match a.find? long with
  | some (.seconds x) => some x
  | _ => none

end Arguments
end LintCorpus.CommandLine
