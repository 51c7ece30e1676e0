/-!
Text as a list of code points, with the searches and cuts the library needs.
A code point is a number, so a text can hold a lone surrogate: an escape in a JSON string may
denote one. Texts are compared code point by code point.
-/
namespace LintCorpus

/-- A sequence of code points. -/
abbrev Text := List Nat

namespace Text

def ofString (s : String) : Text := s.toList.map Char.toNat

instance : Coe String Text := ⟨ofString⟩

/-- The string of a text; a lone surrogate, which no string can hold, becomes a null character. -/
def toString (t : Text) : String := String.ofList (t.map Char.ofNat)

/-- The decimal digits of a number, however many they are. That a number of more than `mostDigits`
digits cannot be written is left out. -/
def ofNat (n : Nat) : Text := (Nat.toDigits 10 n).map Char.toNat

def ofInt (i : Int) : Text := if i < 0 then "-" ++ ofNat i.natAbs else ofNat i.natAbs

/-- How many digits a text may have that is read as an integer. -/
def mostDigits : Nat := 4300

def join (separator : Text) (parts : List Text) : Text := separator.intercalate parts

def startsWith (t start : Text) : Bool := start.isPrefixOf t

def removeStart (t start : Text) : Text := if startsWith t start then t.drop start.length else t

def includes : Text → Text → Bool
  | [], part => part.isEmpty
  | c :: rest, part => part.isPrefixOf (c :: rest) || includes rest part

theorem length_le_of_includes {t part : Text} (inside : t.includes part = true) :
    part.length ≤ t.length := by
  induction t with
  | nil => simp [List.isEmpty_iff.mp inside]
  | cons c rest ih =>
    rcases Bool.or_eq_true_iff.mp inside with begins | later
    · exact (List.isPrefixOf_iff_prefix.mp begins).length_le
    · exact Nat.le_succ_of_le (ih later)

def splitAt (separator : Nat) (t : Text) : List Text :=
  let last := t.foldr
    (fun c (piece, pieces) => if c = separator then ([], piece :: pieces) else (c :: piece, pieces))
    (([] : Text), ([] : List Text))
  last.1 :: last.2

def replace (old new : Nat) (t : Text) : Text := t.map fun c => if c = old then new else c

def copies (n c : Nat) : Text := List.replicate n c

/-- Order by code points, the first difference decides and a text comes after its beginnings. -/
def le (a b : Text) : Bool := !List.lex b a fun x y => decide (x < y)

def sort (ts : List Text) : List Text := ts.mergeSort le

def isSurrogate (c : Nat) : Bool := 0xD800 ≤ c && c ≤ 0xDFFF

def takeLast (n : Nat) (t : Text) : Text := t.drop (t.length - n)

def hex (width n : Nat) : Text :=
  let digits := (Nat.toDigits 16 n).map Char.toNat
  copies (width - digits.length) '0'.toNat ++ digits

end Text
end LintCorpus
