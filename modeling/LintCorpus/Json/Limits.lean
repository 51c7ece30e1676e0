import LintCorpus.Json.Reader

/-!
Reading JSON within limits. An integer may have only so many digits, and arrays and objects may be
nested only so deep; a text that goes beyond is not read, well-formed or not. Everything before the
place that goes beyond is read as without limits.
-/
namespace LintCorpus.Json

/-- How many digits an integer may have and how deep values may be nested. How deep depends on
where in a program the text is read. -/
structure Limits where
  digits : Nat := Text.mostDigits
  depth : Nat := 985

inductive Excess where
  | digits (most count : Nat)
  | nesting (inObject : Bool)
deriving DecidableEq, Repr

namespace Excess

def message : Excess → Text
  | .digits most count =>
    "Exceeds the limit (" ++ Text.ofNat most ++
      " digits) for integer string conversion: value has " ++ Text.ofNat count ++
      " digits; use sys.set_int_max_str_digits() to increase the limit"
  | .nesting inObject =>
    "maximum recursion depth exceeded while decoding a JSON " ++
      (if inObject then "object" else "array") ++ " from a unicode string"

end Excess

inductive LoadFault where
  | malformed (error : SyntaxError)
  | exceeding (excess : Excess)
deriving DecidableEq, Repr

def NumberState.isInteger (n : NumberState) : Bool :=
  match n.mode with
  | .zero | .integer | .point => true
  | .mark | .markSign => n.scale == 0
  | .sign | .fraction | .exponent => false

def NumberState.excess? (limits : Limits) (n : NumberState) : Option Excess :=
  let count := (Text.ofNat n.digits).length
  if n.isInteger && decide (limits.digits < count) then some (.digits limits.digits count) else none

namespace Reader

/-- The number that ends in front of `c`, or at the end of the text. -/
def ended? (r : Reader) (c : Option Nat) : Option NumberState :=
  match r.phase with
  | .number n => if (c.bind (n.extend? r.position)).isSome then none else some n
  | _ => none

def nesting? (limits : Limits) (r : Reader) : Option Excess :=
  if limits.depth < r.stack.length then
    some (.nesting (match r.stack with
      | .object _ _ :: _ => true
      | _ => false))
  else none

/-- Takes one code point. A number is converted as soon as it has ended, so before its end is
judged. -/
def stepWithin (limits : Limits) (r : Reader) (c : Nat) : Except LoadFault Reader :=
  match (r.ended? (some c)).bind (·.excess? limits) with
  | some excess => .error (.exceeding excess)
  | none =>
    match r.step c with
    | .error e => .error (.malformed e)
    | .ok next =>
      match next.nesting? limits with
      | some excess => .error (.exceeding excess)
      | none => .ok next

def finishWithin (limits : Limits) (r : Reader) : Except LoadFault Value :=
  match (r.ended? none).bind (·.excess? limits) with
  | some excess => .error (.exceeding excess)
  | none => r.finish.mapError .malformed

end Reader

def load (limits : Limits) (t : Text) : Except LoadFault Value :=
  if t.head? = some 0xFEFF then .error (.malformed ⟨.byteOrderMark, 0⟩)
  else t.foldlM (Reader.stepWithin limits) {} >>= Reader.finishWithin limits

def excess? (limits : Limits) (t : Text) : Option Excess :=
  match load limits t with
  | .error (.exceeding excess) => some excess
  | _ => none

end LintCorpus.Json
