import LintCorpus.Number.Binary64
import Mathlib.Algebra.Order.Ring.Nat
import Mathlib.Tactic.Ring

/-!
Rounding quotients. The number nearest to a quotient does not depend on how the quotient is written,
and a magnitude is the nearest to itself.
-/
namespace LintCorpus

theorem roundHalfEven_mul (k a d : Nat) (scaled : 0 < k) :
    roundHalfEven (k * a) (k * d) = roundHalfEven a d := by
  have quotient : k * a / (k * d) = a / d := Nat.mul_div_mul_left a d scaled
  have twice : 2 * (k * (a % d)) = k * (2 * (a % d)) := by ring
  simp only [roundHalfEven, quotient, Nat.mul_mod_mul_left, twice, Nat.mul_lt_mul_left scaled]

theorem roundHalfEven_of_dvd (q d : Nat) (positive : 0 < d) : roundHalfEven (q * d) d = q := by
  rw [roundHalfEven, Nat.mul_mod_left, Nat.mul_zero, if_pos positive, Nat.mul_div_cancel q positive]

namespace Magnitude

theorem eq_zero {m : Magnitude} (zero : m.mantissa = 0) : m = .zero := by
  obtain ⟨mantissa, shift, bounded, normal, inRange⟩ := m
  cases zero
  have least : shift = 0 := normal.resolve_right (by decide)
  cases least
  rfl

private theorem log_bounds {n : Nat} (positive : 0 < n) : 2 ^ n.log2 ≤ n ∧ n < 2 ^ (n.log2 + 1) :=
  ⟨Nat.log2_self_le positive.ne', Nat.lt_log2_self⟩

/-- The shift is the least that brings the quotient below 53 bits. -/
theorem unitShift_le_iff (a d s : Nat) (positive : 0 < d) :
    unitShift a d ≤ s ↔ a < d * 2 ^ (s + 53) := by
  obtain ⟨low, high⟩ := log_bounds positive
  let guess := a.log2 - (d.log2 + 52)
  -- One more bit than the difference of the lengths is always enough, one bit less never.
  have enough : a < d * 2 ^ (guess + 53) := by
    calc a < 2 ^ (a.log2 + 1) := Nat.lt_log2_self
      _ ≤ 2 ^ (d.log2 + (guess + 53)) := Nat.pow_le_pow_right (by decide) (by omega)
      _ = 2 ^ d.log2 * 2 ^ (guess + 53) := Nat.pow_add ..
      _ ≤ d * 2 ^ (guess + 53) := Nat.mul_le_mul_right _ low
  have few : 0 < guess → d * 2 ^ (guess + 51) ≤ a := by
    intro above
    have nonzero : a ≠ 0 := by
      rintro rfl
      simp [guess] at above
    calc d * 2 ^ (guess + 51) ≤ 2 ^ (d.log2 + 1) * 2 ^ (guess + 51) :=
          Nat.mul_le_mul_right _ high.le
      _ = 2 ^ (d.log2 + 1 + (guess + 51)) := (Nat.pow_add ..).symm
      _ ≤ 2 ^ a.log2 := Nat.pow_le_pow_right (by decide) (by omega)
      _ ≤ a := Nat.log2_self_le nonzero
  have grows : ∀ {m n}, m ≤ n → d * 2 ^ m ≤ d * 2 ^ n := fun less =>
    Nat.mul_le_mul_left d (Nat.pow_le_pow_right (by decide) less)
  have chosen : unitShift a d =
      if 0 < guess ∧ a < d * Nat.pow 2 (guess + 52) then guess - 1 else guess := rfl
  rw [chosen]
  split
  · next fits =>
    constructor
    · intro reached
      exact Nat.lt_of_lt_of_le fits.2 (grows (by omega))
    · intro below
      by_contra short
      have beyond := Nat.le_trans (grows (m := s + 53) (n := guess + 51) (by omega)) (few fits.1)
      exact absurd below (Nat.not_lt.mpr beyond)
  · next tight =>
    constructor
    · intro reached
      exact Nat.lt_of_lt_of_le enough (grows (by omega))
    · intro below
      by_contra short
      have above : 0 < guess := by omega
      have beyond : d * 2 ^ (guess + 52) ≤ a := Nat.not_lt.mp fun less => tight ⟨above, less⟩
      exact absurd below (Nat.not_lt.mpr (Nat.le_trans (grows (by omega)) beyond))

private theorem unitShift_eq {a d s : Nat} (positive : 0 < d)
    (least : ∀ n, s ≤ n ↔ a < d * 2 ^ (n + 53)) : unitShift a d = s := by
  apply Nat.le_antisymm
  · exact (unitShift_le_iff a d s positive).mpr ((least s).mp (Nat.le_refl s))
  · exact (least _).mpr ((unitShift_le_iff a d _ positive).mp (Nat.le_refl _))

theorem round?_mul (k a d : Nat) (scaled : 0 < k) (positive : 0 < d) :
    round? (k * a) (k * d) = round? a d := by
  have shift : unitShift (k * a) (k * d) = unitShift a d := by
    apply unitShift_eq (Nat.mul_pos scaled positive)
    intro n
    rw [unitShift_le_iff a d n positive, Nat.mul_assoc, Nat.mul_lt_mul_left scaled]
  simp only [round?, shift, Nat.mul_assoc, roundHalfEven_mul k _ _ scaled]

theorem round?_units (m : Magnitude) : round? m.units 1 = some m := by
  have shift : unitShift m.units 1 = m.shift := by
    apply unitShift_eq Nat.one_pos
    intro n
    rw [Nat.one_mul]
    constructor
    · intro reached
      calc m.units < 2 ^ 53 * 2 ^ m.shift :=
            Nat.mul_lt_mul_of_pos_right m.bounded (Nat.two_pow_pos _)
        _ = 2 ^ (53 + m.shift) := (Nat.pow_add ..).symm
        _ ≤ 2 ^ (n + 53) := Nat.pow_le_pow_right (by decide) (by omega)
    · intro below
      rcases m.normal with least | long
      · omega
      · have beyond : 2 ^ (52 + m.shift) < 2 ^ (n + 53) := by
          refine Nat.lt_of_le_of_lt ?_ below
          rw [Nat.pow_add]
          exact Nat.mul_le_mul_right _ long
        have := (Nat.pow_lt_pow_iff_right (by decide)).mp beyond
        omega
  have mantissa : roundHalfEven m.units (1 * Nat.pow 2 m.shift) = m.mantissa := by
    rw [Nat.one_mul]
    exact roundHalfEven_of_dvd _ _ (Nat.two_pow_pos _)
  rw [round?, shift, mantissa, if_neg m.bounded.ne, ofParts?, dif_pos ⟨m.bounded, m.normal, m.inRange⟩]

end Magnitude

namespace Binary64

theorem ofQuotient_mul (negative : Bool) (k a d : Nat) (scaled : 0 < k) (positive : 0 < d) :
    ofQuotient negative (k * a) (k * d) = ofQuotient negative a d := by
  have zero : k * a = 0 ↔ a = 0 := by simp [scaled.ne']
  simp only [ofQuotient, zero, Nat.mul_assoc, Magnitude.round?_mul k _ d scaled positive]

/-- A quotient that is a magnitude is rounded to it. -/
theorem ofQuotient_eq (negative : Bool) (m : Magnitude) (nonzero : m.mantissa ≠ 0) (a d : Nat)
    (positive : 0 < d) (exactly : a * Nat.pow 2 1074 = m.units * d) :
    ofQuotient negative a d = .finite negative m := by
  have units : m.units ≠ 0 := Nat.mul_ne_zero nonzero (Nat.two_pow_pos m.shift).ne'
  have some : a ≠ 0 :=
    left_ne_zero_of_mul (exactly.trans_ne (Nat.mul_ne_zero units positive.ne'))
  have nearest := Magnitude.round?_mul d m.units 1 positive Nat.one_pos
  rw [Nat.mul_one, Magnitude.round?_units] at nearest
  rw [ofQuotient, if_neg some, exactly, Nat.mul_comm, nearest]

end Binary64
end LintCorpus
