import LintCorpus.Json.Writer
import LintCorpus.Proofs.Text.Plain

/-!
What is written as JSON is printable ASCII on lines, so it has bytes. Strings are escaped, so a
value may hold characters and surrogates that its text does not.
-/
namespace LintCorpus

open Text

theorem NumberLayout.plain_write (layout : NumberLayout) (d : Decimal) : (layout.write d).Plain := by
  have digits := plain_ofNat d.digits
  have front (n : Nat) : Plain ((ofNat d.digits).take n) := digits.of_subset (List.take_subset _ _)
  have back (n : Nat) : Plain ((ofNat d.digits).drop n) := digits.of_subset (List.drop_subset _ _)
  have zeros (n : Nat) : Plain (copies n '0'.toNat) := plain_copies _ _ (by decide)
  have marks : Plain "0." ∧ Plain ".0" ∧ Plain "." ∧ Plain "e" ∧ Plain "-" ∧ Plain "+" := by decide
  unfold NumberLayout.write
  dsimp only
  split_ifs <;> simp only [plain_append, plain_ofNat, plain_nil, front, back, zeros, marks, and_self]

theorem Binary64.plain_toText (x : Binary64) : x.toText.Plain := by
  cases x with
  | nan => decide
  | infinity negative => cases negative <;> decide
  | finite negative m =>
    rw [Binary64.toText, Binary64.render, plain_append]
    constructor
    · cases negative <;> decide
    · split
      · decide
      · exact NumberLayout.default.plain_write m.shortest

namespace Json

theorem plain_unicodeEscape (n : Nat) : (unicodeEscape n).Plain := by
  rw [unicodeEscape, hex, plain_append, plain_append]
  exact ⟨by decide, plain_copies _ _ (by decide), plain_toDigits (by decide) (by decide) n⟩

theorem plain_escapeOne (c : Nat) : (escapeOne c).Plain := by
  unfold escapeOne
  split_ifs with mark visible
  · simp only [Bool.or_eq_true, decide_eq_true_eq] at mark
    rcases mark with rfl | rfl <;> decide
  · simp only [Bool.and_eq_true, decide_eq_true_eq] at visible
    exact (plain_cons c []).mpr ⟨.inr visible, plain_nil⟩
  · decide
  · decide
  · decide
  · decide
  · decide
  · exact plain_unicodeEscape c
  · rw [plain_append]
    exact ⟨plain_unicodeEscape _, plain_unicodeEscape _⟩

theorem plain_writeText (t : Text) : (writeText t).Plain := by
  rw [writeText, plain_append, plain_append]
  exact ⟨⟨by decide, plain_flatMap t escapeOne plain_escapeOne⟩, by decide⟩

theorem plain_writeFloat (x : Binary64) : (writeFloat x).Plain := by
  unfold writeFloat
  split
  · decide
  · split <;> decide
  · exact x.plain_toText

theorem plain_ofInt (i : Int) : (ofInt i).Plain := by
  unfold ofInt
  split
  · exact (plain_append _ _).mpr ⟨by decide, plain_ofNat _⟩
  · exact plain_ofNat _

theorem plain_lineBreak (layout : Layout) (depth : Nat) : (layout.lineBreak depth).Plain := by
  cases layout with
  | oneLine => exact plain_nil
  | indented => exact (plain_cons _ _).mpr ⟨.inl rfl, plain_copies _ _ (by decide)⟩

theorem plain_comma (layout : Layout) : layout.comma.Plain := by
  cases layout <;> decide

private theorem plain_null : Plain "null" := by decide

private theorem plain_empty : Plain "[]" ∧ Plain "\x7b\x7d" := by decide

private theorem plain_marks : Plain "[" ∧ Plain "]" ∧ Plain "\x7b" ∧ Plain "\x7d" ∧ Plain ": " := by
  decide

mutual

theorem plain_writeAt (layout : Layout) (depth : Nat) : ∀ v, (writeAt layout depth v).Plain
  | .null => plain_null
  | .bool b => by
    unfold writeAt
    split <;> decide
  | .int i => plain_ofInt i
  | .float x => plain_writeFloat x
  | .text t => plain_writeText t
  | .list [] => plain_empty.1
  | .list (item :: items) => by
    simp [writeAt, plain_lineBreak, plain_marks, plain_writeAt layout (depth + 1) item,
      plain_writeItems layout (depth + 1) items]
  | .object [] => plain_empty.2
  | .object ((name, v) :: members) => by
    simp [writeAt, plain_lineBreak, plain_marks, plain_writeText,
      plain_writeAt layout (depth + 1) v, plain_writeMembers layout (depth + 1) members]
  | .date _ => plain_null
  | .clock _ => plain_null
  | .moment _ _ _ => plain_null

theorem plain_writeItems (layout : Layout) (depth : Nat) :
    ∀ items, (writeItems layout depth items).Plain
  | [] => plain_nil
  | item :: items => by
    simp [writeItems, plain_comma, plain_lineBreak, plain_writeAt layout depth item,
      plain_writeItems layout depth items]

theorem plain_writeMembers (layout : Layout) (depth : Nat) :
    ∀ members, (writeMembers layout depth members).Plain
  | [] => plain_nil
  | (name, v) :: members => by
    simp [writeMembers, plain_comma, plain_lineBreak, plain_marks, plain_writeText,
      plain_writeAt layout depth v, plain_writeMembers layout depth members]

end

theorem plain_write (layout : Layout) (v : Value) : (write layout v).Plain := plain_writeAt layout 0 v

theorem encodable_write (layout : Layout) (v : Value) : (write layout v).Encodable :=
  (plain_write layout v).encodable

end Json
end LintCorpus
