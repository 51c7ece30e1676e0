import LintCorpus.Schema.Objection
import LintCorpus.Stored.AssignFault
import LintCorpus.Text.Blank

/-!
What stands under the names of a record, as far as names after a dot go. A part that is no record
answers to names of its own, but hardly any of them can be assigned to: a part is replaced as a
whole.
-/
namespace LintCorpus

inductive Part where
  | nothing
  | flag
  | integer
  | number
  | text
  | items
  | sequence
  | map
  | set
  | fixedSet
  | path
  | choice (kind : Text)
  | row (kind : Text) (names : List Text)
  | action
deriving DecidableEq

namespace Part

open Text (words)

def ofValue : Value → Part
  | .null => .nothing
  | .bool _ => .flag
  | .int _ => .integer
  | .float _ => .number
  | .list _ => .items
  | .object _ => .map
  | _ => .text

def kind : Part → Text
  | .nothing => "NoneType"
  | .flag => "bool"
  | .integer => "int"
  | .number => "float"
  | .text => "str"
  | .items => "list"
  | .sequence => "tuple"
  | .map => "dict"
  | .set => "set"
  | .fixedSet => "frozenset"
  | .path => "PosixPath"
  | .choice kind => kind
  | .row kind _ => kind
  | .action => "method"

def setApart (names : List Text) : List Text := names.map fun name => "__" ++ name ++ "__"

def sharedVerbs : List Text :=
  setApart (words "delattr dir doc eq format ge getattribute getstate gt hash init le lt ne" ++
    words "init_subclass new reduce reduce_ex repr setattr sizeof str subclasshook")

def itemVerbs : List Text := setApart (words "contains iter len")

def indexVerbs : List Text := setApart (words "getitem") ++ itemVerbs

def numberVerbs : List Text := words "as_integer_ratio conjugate"

def setVerbs : List Text :=
  words "copy difference intersection isdisjoint issubset issuperset symmetric_difference union" ++
    itemVerbs

def verbs : Part → List Text
  | .flag | .integer => words "bit_count bit_length from_bytes to_bytes" ++ numberVerbs
  | .number => words "fromhex hex is_integer" ++ numberVerbs
  | .text =>
    words "capitalize casefold center count encode endswith expandtabs find format format_map" ++
      words "index isalnum isalpha isascii isdecimal isdigit isidentifier islower isnumeric" ++
      words "isprintable isspace istitle isupper join ljust lower lstrip maketrans partition" ++
      words "removeprefix removesuffix replace rfind rindex rjust rpartition rsplit rstrip" ++
      words "split splitlines startswith strip swapcase title upper zfill" ++ indexVerbs
  | .items =>
    words "append clear copy count extend index insert pop remove reverse sort" ++ indexVerbs
  | .sequence | .row .. => words "count index" ++ indexVerbs
  | .map =>
    words "clear copy fromkeys get items keys pop popitem setdefault update values" ++ indexVerbs
  | .set =>
    words "add clear difference_update discard intersection_update pop remove" ++
      words "symmetric_difference_update update" ++ setVerbs
  | .fixedSet => setVerbs
  | .path =>
    words "absolute as_posix as_uri chmod cwd exists expanduser glob group hardlink_to home" ++
      words "is_absolute is_block_device is_char_device is_dir is_fifo is_file is_mount" ++
      words "is_relative_to is_reserved is_socket is_symlink iterdir joinpath lchmod link_to" ++
      words "lstat match mkdir open owner read_bytes read_text readlink relative_to rename" ++
      words "replace resolve rglob rmdir samefile stat symlink_to touch unlink with_name" ++
      words "with_stem with_suffix write_bytes write_text"
  | .nothing | .choice _ | .action => []

/-- The part under a name of a part: what it can be asked for, which follows from what it is. -/
def part? : Part → Text → Option Part
  | .flag, name | .integer, name =>
    if (words "real imag numerator denominator").contains name then some .integer else none
  | .number, name => if (words "real imag").contains name then some .number else none
  | .path, name =>
    if (words "drive root anchor name suffix stem").contains name then some .text
    else if name = "suffixes" then some .items
    else if name = "parts" then some .sequence
    else if name = "parent" then some .path
    else if name = "parents" then some (.row "_PathParents" [])
    else none
  | .choice kind, name =>
    if (words "name value").contains name then some .text
    else if kind = "InvocationStatus" ∧ name = "broke_build" then some .flag
    else none
  | .row _ names, name => if names.contains name then some .text else none
  | _, _ => none

def refuse (p : Part) (name : Text) : Refusal :=
  ⟨p.kind, if (sharedVerbs ++ p.verbs).contains name then .readOnly name else .noPart name⟩

/-- What is wrong with assigning to a name of a part, if anything is. A choice takes what none of
its own names stands for, which changes nothing about it. -/
def assign (p : Part) (name : Text) (v : Value) : Option Refusal :=
  if name = "__class__" then some ⟨p.kind, .notAKind v.typeName⟩
  else
    match p with
    | .choice kind =>
      if p.part? name = some .text then some ⟨kind, .ofChoice name⟩
      else if p.part? name = some .flag then some ⟨kind, .noSetter name⟩
      else if name = "__weakref__" then some ⟨kind, .notWritable name⟩
      else if name = "__dict__" ∧ v.members?.isNone then some ⟨kind, .notADictionary v.typeName⟩
      else none
    | .flag | .integer =>
      some (if (p.part? name).isSome then ⟨"int", .notWritable name⟩ else p.refuse name)
    | .number => some (if (p.part? name).isSome then ⟨p.kind, .notWritable name⟩ else p.refuse name)
    | .path => some (if (p.part? name).isSome then ⟨p.kind, .noSetter name⟩ else p.refuse name)
    | .row kind _ => some (if (p.part? name).isSome then ⟨kind, .ofRow⟩ else p.refuse name)
    | _ => some (p.refuse name)

def assignAlong (p : Part) : List Text → Value → Option Refusal
  | [], _ => none
  | [name], v => p.assign name v
  | name :: rest, v =>
    match p.part? name with
    | some part => part.assignAlong rest v
    | none => some ⟨p.kind, .noPart name⟩

end Part
end LintCorpus
