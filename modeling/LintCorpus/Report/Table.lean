import LintCorpus.Text.CellWidth

/-!
Tables in Markdown, padded so that columns line up in a terminal. A column that holds only numbers
is set to the right.
-/
namespace LintCorpus

structure Cell where
  content : Text
  numeric : Bool
deriving DecidableEq

namespace Cell

def text (t : Text) : Cell := ⟨t, false⟩

/-- A cell with a count, which has nowhere near `Text.mostDigits` digits. -/
def int (i : Int) : Cell := ⟨Text.ofInt i, true⟩

/-- A cell with a truth value, which is set like a number. -/
def bool (b : Bool) : Cell := ⟨if b then "True" else "False", true⟩

def missing : Cell := ⟨"None", false⟩

end Cell

inductive Alignment where
  | left
  | right
deriving DecidableEq, Repr

/-- Why rows do not make a table: one has too few cells, or none has and one has too many. -/
inductive TableFault where
  | shortRow
  | longRow
deriving DecidableEq, Repr

def TableFault.message : TableFault → Text
  | .shortRow => "list index out of range"
  | .longRow => "zip() argument 2 is shorter than argument 1"

/-- Headers over rows that have a cell for each of them. -/
structure Table where
  headers : List Text
  rows : List (List Cell)
  fit : ∀ row ∈ rows, row.length = headers.length

namespace Table

structure Column where
  width : Nat
  alignment : Alignment
deriving DecidableEq

-- How many cells each code point takes.
variable (size : Nat → Nat)

def column (header : Text) (cells : List Cell) : Column where
  width := (cells.map fun c => c.content.widthBy size).foldl max (header.widthBy size)
  alignment := if !cells.isEmpty && cells.all Cell.numeric then .right else .left

def pad (c : Column) (t : Text) : Text :=
  let gap := Text.copies (c.width - t.widthBy size) 0x20
  match c.alignment with
  | .left => [0x20] ++ t ++ gap ++ [0x20]
  | .right => [0x20] ++ gap ++ t ++ [0x20]

/-- The part of the rule below the headers that belongs to a column. -/
def rulePart (c : Column) : Text :=
  let dashes := Text.copies (c.width + 1) '-'.toNat
  match c.alignment with
  | .left => ":" ++ dashes
  | .right => dashes ++ ":"

def line (columns : List Column) (texts : List Text) : Text :=
  Text.join "|" (columns.zipWith (pad size) texts)

def columns : List Text → List (List Cell) → List Column
  | [], _ => []
  | header :: headers, rows =>
    column size header (rows.filterMap List.head?) :: columns headers (rows.map List.tail)

def linesBy (t : Table) : List Text :=
  let cs := columns size t.headers t.rows
  line size cs t.headers :: Text.join "|" (cs.map rulePart) ::
    t.rows.map fun row => line size cs (row.map Cell.content)

def lines (t : Table) : List Text := t.linesBy Text.cellWidth

/-- The cells that rows have at a place, unless one of the rows ends before it. -/
def cellsAt (rows : List (List Cell)) (place : Nat) : Except TableFault (List Cell) :=
  rows.mapM fun row =>
    match row[place]? with
    | some cell => .ok cell
    | none => .error .shortRow

def readColumns (headers : List Text) (rows : List (List Cell)) : Except TableFault (List Column) :=
  headers.zipIdx.mapM fun (header, place) => (cellsAt rows place).map (column size header)

def fitLine (columns : List Column) (texts : List Text) : Except TableFault Text :=
  if columns.length < texts.length then .error .longRow else .ok (line size columns texts)

/-- The lines of the table that headers and rows make. Whether the rows fit shows while it is drawn:
short ones when the columns are read, long ones when their lines are due. -/
def renderBy (headers : List Text) (rows : List (List Cell)) : Except TableFault (List Text) := do
  let cs ← readColumns size headers rows
  let top ← fitLine size cs headers
  let below ← rows.mapM fun row => fitLine size cs (row.map Cell.content)
  return top :: Text.join "|" (cs.map rulePart) :: below

def render (headers : List Text) (rows : List (List Cell)) : Except TableFault (List Text) :=
  renderBy Text.cellWidth headers rows

end Table
end LintCorpus
