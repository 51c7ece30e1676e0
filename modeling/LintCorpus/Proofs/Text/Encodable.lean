import LintCorpus.Invocation
import LintCorpus.Proofs.Text.Lines
import LintCorpus.Proofs.Text.Utf8
import Mathlib.Data.List.TakeWhile

/-!
Texts that UTF-8 can hold. A text has bytes exactly if none of its code points is a surrogate. What
is read from bytes has none, whatever the bytes are; nor have strings and numbers.
-/
namespace LintCorpus

namespace Text

def Encodable (t : Text) : Prop := ∀ c ∈ t, isSurrogate c = false

instance (t : Text) : Decidable t.Encodable :=
  inferInstanceAs (Decidable (∀ c ∈ t, isSurrogate c = false))

theorem isSurrogate_of_valid (c : Nat) (valid : c.isValidChar) : isSurrogate c = false := by
  have bounds : c < 0xD800 ∨ 0xDFFF < c ∧ c < 0x110000 := valid
  simp only [isSurrogate, Bool.and_eq_false_iff, decide_eq_false_iff_not]
  omega

theorem encodable_of_valid (t : Text) (valid : ∀ c ∈ t, c.isValidChar) : t.Encodable :=
  fun c member => isSurrogate_of_valid c (valid c member)

theorem Encodable.of_subset {t whole : Text} (encodable : whole.Encodable) (part : t ⊆ whole) :
    t.Encodable :=
  fun c member => encodable c (part member)

@[simp] theorem encodable_nil : Encodable [] := nofun

@[simp] theorem encodable_cons (c : Nat) (t : Text) :
    Encodable (c :: t) ↔ isSurrogate c = false ∧ t.Encodable :=
  List.forall_mem_cons

@[simp] theorem encodable_append (t u : Text) :
    Encodable (t ++ u) ↔ t.Encodable ∧ u.Encodable :=
  List.forall_mem_append

@[simp] theorem encodable_map_toNat (characters : List Char) :
    Encodable (characters.map Char.toNat) := by
  apply encodable_of_valid
  intro c member
  obtain ⟨character, -, rfl⟩ := List.mem_map.mp member
  exact character.valid

@[simp] theorem encodable_ofString (s : String) : (ofString s).Encodable :=
  encodable_map_toNat s.toList

@[simp] theorem encodable_ofNat (n : Nat) : (ofNat n).Encodable := encodable_map_toNat _

@[simp] theorem encodable_ofInt (i : Int) : (ofInt i).Encodable := by
  unfold ofInt
  split <;> simp

@[simp] theorem encodable_copies (n c : Nat) (plain : isSurrogate c = false) :
    (copies n c).Encodable := by
  intro d member
  rwa [List.eq_of_mem_replicate member]

/-- Nothing is left behind the longest beginning with a property if all code points have it. -/
theorem isEmpty_drop_takeWhile (test : Nat → Bool) (t : Text) :
    (t.drop (t.takeWhile test).length).isEmpty ↔ ∀ c ∈ t, test c = true := by
  rw [List.isEmpty_iff, List.drop_eq_nil_iff, ← List.takeWhile_eq_self_iff]
  constructor
  · exact (List.takeWhile_prefix _).eq_of_length_le
  · intro whole
    exact (congrArg List.length whole).ge

theorem encodable_join (separator : Text) (plain : separator.Encodable) (parts : List Text) :
    (join separator parts).Encodable ↔ ∀ part ∈ parts, part.Encodable := by
  induction parts with
  | nil => exact iff_of_true encodable_nil nofun
  | cons first rest ih =>
    by_cases more : rest = []
    · rw [more, join_singleton, List.forall_mem_singleton]
    · rw [join_cons _ _ _ more, encodable_append, encodable_append, ih, List.forall_mem_cons,
        and_iff_left plain]

end Text

namespace Utf8

open Text

theorem firstSurrogates?_eq_none (t : Text) : firstSurrogates? t = none ↔ t.Encodable := by
  have plain : t.Encodable ↔ ∀ c ∈ t, (!isSurrogate c) = true := by
    simp only [Text.Encodable, Bool.not_eq_true']
  rw [plain, ← isEmpty_drop_takeWhile, firstSurrogates?]
  simp

theorem encodeStrict_of_encodable {t : Text} (encodable : t.Encodable) :
    encodeStrict t = .ok (encode t) := by
  rw [encodeStrict, (firstSurrogates?_eq_none t).mpr encodable]

theorem encodeStrict_of_surrogate {t : Text} (surrogate : ¬t.Encodable) :
    ∃ fault, encodeStrict t = .error fault := by
  rw [← firstSurrogates?_eq_none] at surrogate
  obtain ⟨⟨place, run⟩, found⟩ := Option.ne_none_iff_exists'.mp surrogate
  exact ⟨_, by rw [encodeStrict, found]⟩

theorem encodable_decode (bytes : Bytes) : (decode bytes).Encodable :=
  encodable_of_valid _ (decode_valid bytes)

end Utf8

theorem takeEnd_suffix {α : Type} (count : Int) (items : List α) : takeEnd count items <:+ items := by
  unfold takeEnd
  split <;> exact List.drop_suffix _ _

/-- Whatever a run wrote, reports can quote the end of it. -/
theorem Invocation.encodable_tail (i : Invocation) (maxLines maxChars : Int) :
    (i.tail maxLines maxChars).Encodable := by
  have quoted : (Utf8.decode i.payload).stripEnd ⊆ Utf8.decode i.payload := by
    intro c member
    rw [Text.stripEnd, List.mem_reverse] at member
    exact List.mem_reverse.mp (List.dropWhile_subset _ member)
  have whole : (Text.join [0x0A]
      (takeEnd maxLines (Utf8.decode i.payload).stripEnd.lines)).Encodable := by
    rw [Text.encodable_join _ (by decide)]
    intro line member
    have among := (takeEnd_suffix _ _).subset member
    exact (Utf8.encodable_decode i.payload).of_subset fun _ inside =>
      quoted (Text.lines_subset among inside)
  unfold Invocation.tail
  dsimp only
  split
  · exact whole.of_subset (takeEnd_suffix _ _).subset
  · exact whole

end LintCorpus
