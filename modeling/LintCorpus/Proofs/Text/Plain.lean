import LintCorpus.Proofs.Text.Encodable

/-!
Texts of printable ASCII on lines. Such a text has bytes, a reader that refuses what is malformed
has it back from them, and it has no line ends but line feeds.
-/
namespace LintCorpus

namespace Text

/-- Printable ASCII and line feeds. -/
def Plain (t : Text) : Prop := ∀ c ∈ t, c = 0x0A ∨ 0x20 ≤ c ∧ c ≤ 0x7E

instance (t : Text) : Decidable t.Plain :=
  inferInstanceAs (Decidable (∀ c ∈ t, c = 0x0A ∨ 0x20 ≤ c ∧ c ≤ 0x7E))

theorem Plain.of_subset {t whole : Text} (plain : whole.Plain) (part : t ⊆ whole) : t.Plain :=
  fun c member => plain c (part member)

@[simp] theorem plain_nil : Plain [] := nofun

@[simp] theorem plain_cons (c : Nat) (t : Text) :
    Plain (c :: t) ↔ (c = 0x0A ∨ 0x20 ≤ c ∧ c ≤ 0x7E) ∧ t.Plain :=
  List.forall_mem_cons

@[simp] theorem plain_append (t u : Text) : Plain (t ++ u) ↔ t.Plain ∧ u.Plain :=
  List.forall_mem_append

theorem plain_toDigits {base : Nat} (large : 1 < base) (small : base ≤ 16) (n : Nat) :
    Plain ((Nat.toDigits base n).map Char.toNat) := by
  have digit : ∀ d < 16, Plain [(Nat.digitChar d).toNat] := by decide
  induction n using Nat.strong_induction_on with
  | _ n ih =>
    rw [Nat.toDigits_eq_if large]
    split
    · next last => exact digit n (Nat.lt_of_lt_of_le last small)
    · next more =>
      have below := Nat.mod_lt n (Nat.zero_lt_of_lt large)
      rw [List.map_append, plain_append]
      exact ⟨ih _ (Nat.div_lt_self (by omega) large), digit _ (Nat.lt_of_lt_of_le below small)⟩

@[simp] theorem plain_ofNat (n : Nat) : (ofNat n).Plain := plain_toDigits (by decide) (by decide) n

theorem plain_copies (n c : Nat) (visible : 0x20 ≤ c ∧ c ≤ 0x7E) : (copies n c).Plain := by
  intro d member
  rw [List.eq_of_mem_replicate member]
  exact .inr visible

theorem plain_flatMap {α : Type} (items : List α) (write : α → Text)
    (all : ∀ item, (write item).Plain) : Plain (items.flatMap write) := by
  intro c member
  obtain ⟨item, present, inside⟩ := List.mem_flatMap.mp member
  exact all item c inside

theorem Plain.encodable {t : Text} (plain : t.Plain) : t.Encodable := by
  refine encodable_of_valid t fun c member => .inl ?_
  rcases plain c member with rfl | bounds <;> omega

/-- Without carriage returns the ends of lines are as they are to be. -/
theorem normalizeNewlines_eq {t : Text} (plain : t.Plain) : t.normalizeNewlines = t := by
  have all (out : Text) : (t.foldl (fun (out, afterReturn) c =>
      if c = 0x0A && afterReturn then (out, false)
      else if c = 0x0D then (0x0A :: out, true)
      else (c :: out, false)) (out, false)) = (t.reverse ++ out, false) := by
    induction t generalizing out with
    | nil => rfl
    | cons c rest ih =>
      obtain ⟨first, others⟩ := (plain_cons c rest).mp plain
      have other : c ≠ 0x0D := by omega
      rw [List.foldl_cons]
      simp only [other, Bool.and_false, if_false, Bool.false_eq_true]
      rw [ih others, List.reverse_cons, List.append_assoc]
      rfl
  rw [normalizeNewlines, all, List.append_nil, List.reverse_reverse]

end Text

namespace Utf8

/-- ASCII is well formed, and every byte stands for itself. -/
theorem decodeStrict_encode_of_plain {t : Text} (plain : t.Plain) :
    decodeStrict (encode t) = .ok t := by
  have ascii : ∀ c ∈ t, c < 0x80 := fun c member => by
    rcases plain c member with rfl | bounds <;> omega
  have accepted (place : Nat) : (encode t).foldlM Checker.step ⟨place, none⟩ =
      .ok ⟨place + t.length, none⟩ := by
    clear plain
    induction t generalizing place with
    | nil => rfl
    | cons c rest ih =>
      obtain ⟨first, others⟩ := List.forall_mem_cons.mp ascii
      have byte : encodeOne c = [UInt8.ofNat c] := by rw [encodeOne, if_pos first]
      have value : (UInt8.ofNat c).toNat = c := by
        rw [UInt8.toNat_ofNat']
        omega
      have step : Checker.step ⟨place, none⟩ (UInt8.ofNat c) = .ok ⟨place + 1, none⟩ := by
        simp only [Checker.step, value, opening, first, if_true]
      rw [encode, List.flatMap_cons, byte, List.singleton_append, List.foldlM_cons, step]
      exact (ih others (place + 1)).trans (by rw [List.length_cons, Nat.add_assoc, Nat.add_comm 1])
  have whole : check (encode t) = .ok () := by
    rw [check, accepted]
    rfl
  rw [decodeStrict, whole]
  exact congrArg Except.ok (decode_encode t fun c member => .inl (by have := ascii c member; omega))

end Utf8
end LintCorpus
