import LintCorpus.Number.Shortest
import LintCorpus.Proofs.Number.Rounding

/-!
The shortest text of a number. Whatever digits are found for a magnitude are nearest to it and to no
other, so the number can be had back from them; zeros at their end may go to the exponent.
-/
namespace LintCorpus

namespace Binary64

theorem digitCount_le_iff {n k : Nat} (positive : 0 < k) : digitCount n ≤ k ↔ n < 10 ^ k :=
  Nat.length_toDigits_le_iff (by decide) positive

theorem digitCount_mul_ten {n : Nat} (nonzero : n ≠ 0) :
    digitCount (10 * n) = digitCount n + 1 := by
  have longer := Nat.toDigits_append_toDigits (b := 10) (n := n) (d := 0) (by decide)
    (Nat.pos_of_ne_zero nonzero) (by decide)
  rw [Nat.add_zero] at longer
  rw [digitCount, digitCount, ← longer, List.length_append]
  rfl

variable (negative : Bool)

theorem ofDecimal_zero (exponent : Int) : ofDecimal negative 0 exponent = zero negative := by
  rw [ofDecimal, if_pos rfl]

/-- A decimal that is not far off is a quotient of integers. -/
private theorem ofDecimal_eq_quotient {digits : Nat} {exponent : Int} (nonzero : digits ≠ 0)
    (below : ¬(digitCount digits : Int) + exponent > 310)
    (above : ¬(digitCount digits : Int) + exponent < -330) :
    ofDecimal negative digits exponent =
      ofQuotient negative (digits * 10 ^ exponent.toNat) (10 ^ (-exponent).toNat) := by
  rw [ofDecimal, if_neg nonzero, if_neg below, if_neg above]
  split
  · next low =>
    rw [show exponent.toNat = 0 by omega, show (-exponent).toNat = exponent.natAbs by omega,
      Nat.pow_zero, Nat.mul_one]
    rfl
  · next high =>
    rw [show (-exponent).toNat = 0 by omega, show exponent.toNat = exponent.natAbs by omega,
      Nat.pow_zero]
    rfl

theorem ofDecimal_mul_ten (digits : Nat) (exponent : Int) :
    ofDecimal negative (10 * digits) exponent = ofDecimal negative digits (exponent + 1) := by
  by_cases empty : digits = 0
  · rw [empty, Nat.mul_zero, ofDecimal_zero, ofDecimal_zero]
  have some : 10 * digits ≠ 0 := by omega
  have top : (digitCount (10 * digits) : Int) + exponent = digitCount digits + (exponent + 1) := by
    rw [digitCount_mul_ten empty]
    omega
  by_cases high : (digitCount digits : Int) + (exponent + 1) > 310
  · simp only [ofDecimal, top, some, empty, high, if_true, if_false]
  by_cases low : (digitCount digits : Int) + (exponent + 1) < -330
  · simp only [ofDecimal, top, some, empty, high, low, if_true, if_false]
  rw [ofDecimal_eq_quotient negative some (top ▸ high) (top ▸ low),
    ofDecimal_eq_quotient negative empty high low]
  by_cases below : exponent < 0
  · have shift : (-exponent).toNat = (-(exponent + 1)).toNat + 1 := by omega
    rw [shift, show exponent.toNat = 0 by omega, show (exponent + 1).toNat = 0 by omega,
      Nat.pow_zero, Nat.mul_one, Nat.mul_one, Nat.pow_succ', ofQuotient_mul _ _ _ _ (by decide)]
    exact Nat.pow_pos (by decide)
  · have shift : (exponent + 1).toNat = exponent.toNat + 1 := by omega
    rw [shift, show (-exponent).toNat = 0 by omega, show (-(exponent + 1)).toNat = 0 by omega,
      Nat.pow_succ']
    congr 1
    ring

theorem ofDecimal_mul_pow (digits count : Nat) (exponent : Int) :
    ofDecimal negative (digits * 10 ^ count) exponent =
      ofDecimal negative digits (exponent + count) := by
  induction count generalizing digits with
  | zero => rw [Nat.pow_zero, Nat.mul_one, Nat.cast_zero, Int.add_zero]
  | succ count ih =>
    have split : digits * 10 ^ (count + 1) = 10 * digits * 10 ^ count := by ring
    rw [split, ih, ofDecimal_mul_ten]
    congr 1
    push_cast
    ring

/-- The sign is apart from the rest. -/
theorem ofDecimal_sign {digits : Nat} {exponent : Int} {m : Magnitude}
    (read : ofDecimal false digits exponent = .finite false m) :
    ofDecimal negative digits exponent = .finite negative m := by
  have quotient : ∀ a d, ofQuotient false a d = .finite false m →
      ofQuotient negative a d = .finite negative m := by
    intro a d exactly
    rw [ofQuotient] at exactly ⊢
    split_ifs at exactly ⊢
    · cases exactly
      rfl
    · split at exactly
      · cases exactly
        rfl
      · cases exactly
  rw [ofDecimal] at read ⊢
  split_ifs at read ⊢
  · cases read
    rfl
  · cases read
    rfl
  · exact quotient _ _ read
  · exact quotient _ _ read

end Binary64

namespace Decimal

open Binary64

theorem ofDecimal_trim (negative : Bool) (fuel : Nat) (d : Decimal) :
    ofDecimal negative (d.trim fuel).digits (d.trim fuel).exponent =
      ofDecimal negative d.digits d.exponent := by
  fun_induction Decimal.trim fuel d with
  | case1 d => rfl
  | case2 d fuel ends ih =>
    rw [ih, ← ofDecimal_mul_ten, Nat.mul_div_cancel' (Nat.dvd_of_mod_eq_zero ends.2)]
  | case3 d fuel ends => rfl

theorem digits_trim_ne_zero (fuel : Nat) (d : Decimal) (nonzero : d.digits ≠ 0) :
    (d.trim fuel).digits ≠ 0 := by
  fun_induction Decimal.trim fuel d with
  | case1 d => exact nonzero
  | case2 d fuel ends ih =>
    apply ih
    have := ends.2
    dsimp only
    omega
  | case3 d fuel ends => exact nonzero

end Decimal

namespace Magnitude

open Binary64

variable {m : Magnitude}

private theorem digitCount_scaled {units scale most : Nat} (low high : Nat)
    (nonzero : 1 ≤ units) (bounded : units < most) (wide : 0 < low ∧ 0 < high)
    (narrow : Nat.pow 10 low ≤ scale) (under : most * scale ≤ Nat.pow 10 high) :
    low < digitCount (units * scale) ∧ digitCount (units * scale) ≤ high := by
  constructor
  · by_contra few
    have below := (digitCount_le_iff wide.1).mp (Nat.not_lt.mp few)
    exact absurd below (Nat.not_lt.mpr (Nat.le_trans narrow (Nat.le_mul_of_pos_left _ nonzero)))
  · apply (digitCount_le_iff wide.2).mpr
    refine Nat.lt_of_lt_of_le (Nat.mul_lt_mul_of_pos_right bounded ?_) under
    exact Nat.lt_of_lt_of_le (Nat.pow_pos (by decide)) narrow

theorem units_lt (m : Magnitude) {count : Nat} (wide : 53 + 2045 ≤ count) :
    m.units < Nat.pow 2 count := by
  calc m.units < 2 ^ 53 * 2 ^ m.shift :=
        Nat.mul_lt_mul_of_pos_right m.bounded (Nat.two_pow_pos _)
    _ = 2 ^ (53 + m.shift) := (Nat.pow_add ..).symm
    _ ≤ Nat.pow 2 count := by
        have := m.inRange
        exact Nat.pow_le_pow_right (by decide) (by omega)

private theorem scale_least : Nat.pow 10 743 ≤ Nat.pow 5 1074 := by decide +kernel

private theorem scale_greatest : Nat.pow 2 2098 * Nat.pow 5 1074 ≤ Nat.pow 10 1384 := by decide +kernel

private theorem digitCount_allDigits (nonzero : m.mantissa ≠ 0) :
    743 < digitCount m.allDigits.digits ∧ digitCount m.allDigits.digits ≤ 1384 := by
  have units : 1 ≤ m.units :=
    Nat.one_le_iff_ne_zero.mpr (Nat.mul_ne_zero nonzero (Nat.two_pow_pos m.shift).ne')
  exact digitCount_scaled 743 1384 units (m.units_lt (by decide)) (by decide) scale_least scale_greatest

/-- Five and two to a power make ten to it, so all digits at that exponent are the magnitude. -/
private theorem ofDecimal_scaled (nonzero : m.mantissa ≠ 0) {digits scale : Nat}
    (range : 743 < digitCount digits ∧ digitCount digits ≤ 1384) (same : scale = 1074)
    (all : digits = m.units * Nat.pow 5 scale) :
    ofDecimal false digits (-(scale : Int)) = .finite false m := by
  have some : digits ≠ 0 := by
    intro none
    rw [none] at range
    exact absurd range.1 (by decide)
  rw [ofDecimal_eq_quotient false some (by omega) (by omega), Int.neg_neg, Int.toNat_neg_natCast,
    Int.toNat_natCast, Nat.pow_zero, Nat.mul_one, all]
  refine ofQuotient_eq false m nonzero _ _ (Nat.pow_pos (by decide)) ?_
  rw [← same, Nat.mul_assoc, Nat.pow_eq, Nat.pow_eq, ← Nat.mul_pow]

private theorem ofDecimal_allDigits (nonzero : m.mantissa ≠ 0) :
    ofDecimal false m.allDigits.digits m.allDigits.exponent = .finite false m := by
  have exponent : m.allDigits.exponent = -((1074 : Nat) : Int) := rfl
  rw [exponent]
  exact ofDecimal_scaled nonzero (digitCount_allDigits nonzero) rfl rfl

theorem ofDecimal_of_readsBack {d : Decimal} (reads : m.readsBack d = true) :
    ofDecimal false d.digits d.exponent = .finite false m :=
  eq_of_beq reads

private theorem ofDecimal_found (nonzero : m.mantissa ≠ 0) (found : Option Decimal)
    (reads : ∀ d, found = some d → m.readsBack d = true) :
    ofDecimal false (found.getD m.allDigits).digits (found.getD m.allDigits).exponent =
      .finite false m := by
  cases found with
  | none => rw [Option.getD_none, ofDecimal_allDigits nonzero]
  | some d => rw [Option.getD_some, ofDecimal_of_readsBack (reads d rfl)]

private theorem ofDecimal_trimmed (negative : Bool) (nonzero : m.mantissa ≠ 0) {d : Decimal}
    (fuel : Nat) (read : ofDecimal false d.digits d.exponent = .finite false m) :
    (d.trim fuel).digits ≠ 0 ∧
      ofDecimal negative (d.trim fuel).digits (d.trim fuel).exponent = .finite negative m := by
  constructor
  · apply Decimal.digits_trim_ne_zero
    intro none
    rw [none, ofDecimal_zero] at read
    cases read
    exact nonzero rfl
  · rw [Decimal.ofDecimal_trim]
    exact ofDecimal_sign negative read

/-- The shortest digits of a magnitude read back as it. -/
theorem ofDecimal_shortest (negative : Bool) (nonzero : m.mantissa ≠ 0) :
    m.shortest.digits ≠ 0 ∧
      ofDecimal negative m.shortest.digits m.shortest.exponent = .finite negative m := by
  have read := ofDecimal_found nonzero (((List.range 17).map (· + 1)).findSome? m.onGrid?) <| by
    intro d chosen
    obtain ⟨count, -, grid⟩ := List.exists_of_findSome?_eq_some chosen
    exact List.find?_some grid
  exact ofDecimal_trimmed negative nonzero _ read

end Magnitude
end LintCorpus
