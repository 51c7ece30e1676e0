import LintCorpus.Json.Reader
import LintCorpus.Proofs.Number.Shortest

/-!
Numbers in JSON. The reader takes a number in one run of its digits after another. An integer is
read back from its digits, and a decimal from each of the ways it may be laid out.
-/
namespace LintCorpus.Json.NumberState

open Nat (ofDigitChars)

/-- The state after a stretch of text, if the number goes on through all of it. -/
def scan (n : NumberState) (position : Nat) : Text → Option NumberState
  | [] => some n
  | c :: rest => (n.extend? position c).bind fun next => next.scan (position + 1) rest

theorem scan_append (n : NumberState) (position : Nat) (front back : Text) :
    n.scan position (front ++ back) =
      (n.scan position front).bind fun m => m.scan (position + front.length) back := by
  induction front generalizing n position with
  | nil => rfl
  | cons c rest ih =>
    rw [List.cons_append, scan, scan, Option.bind_assoc]
    congr 1
    funext next
    rw [ih, List.length_cons, Nat.add_assoc, Nat.add_comm 1]

/-- A number that has an integer part at most, up to now. -/
def whole (start : Nat) (negative : Bool) (mode : NumberMode) (digits : Nat) : NumberState :=
  ⟨start, mode, negative, digits, 0, false, 0, start⟩

def Ended (n : NumberState) : Prop :=
  n.mode = .zero ∨ n.mode = .integer ∨ n.mode = .fraction ∨ n.mode = .exponent

/-- The text, after the sign, is that of a number with this value. -/
def Denotes (negative : Bool) (t : Text) (v : Value) : Prop :=
  ∀ start position, ∃ m, (whole start negative .sign 0).scan position t = some m ∧ m.Ended ∧ m.value = v

theorem Denotes.ne_nil {negative : Bool} {t : Text} {v : Value} (denotes : Denotes negative t v) :
    t ≠ [] := by
  rintro rfl
  obtain ⟨m, scanned, ended, -⟩ := denotes 0 0
  cases scanned
  rcases ended with mode | mode | mode | mode <;> cases mode

section Digits

variable {n : NumberState} {digits : List Char} (position : Nat)

theorem digit_bounds {c : Char} (digit : c.isDigit = true) :
    0x30 ≤ c.toNat ∧ c.toNat ≤ 0x39 := by
  simpa [Char.isDigit, UInt32.le_iff_toNat_le] using digit

private theorem digit?_eq {c : Char} (digit : c.isDigit = true) :
    (if 0x30 ≤ c.toNat && c.toNat ≤ 0x39 then some (c.toNat - 0x30) else none) =
      some (c.toNat - '0'.toNat) := by
  obtain ⟨low, high⟩ := digit_bounds digit
  rw [if_pos (by simp [low, high])]
  rfl

theorem scan_integer (all : ∀ c ∈ digits, c.isDigit = true) (mode : n.mode = .integer) :
    n.scan position (digits.map Char.toNat) =
      some { n with digits := ofDigitChars 10 digits n.digits } := by
  induction digits generalizing n position with
  | nil => rfl
  | cons c rest ih =>
    obtain ⟨digit, others⟩ := List.forall_mem_cons.mp all
    have first : n.extend? position c.toNat = some (n.digit (c.toNat - '0'.toNat) .integer) := by
      simp only [extend?, digit?_eq digit, mode]
    rw [List.map_cons, scan, first, Option.bind_some, ih _ others rfl, Nat.ofDigitChars_cons]
    simp only [NumberState.digit, mode, Nat.mul_comm]

theorem scan_fraction (all : ∀ c ∈ digits, c.isDigit = true) (mode : n.mode = .fraction) :
    n.scan position (digits.map Char.toNat) =
      some { n with digits := ofDigitChars 10 digits n.digits, scale := n.scale + digits.length } := by
  induction digits generalizing n position with
  | nil => rfl
  | cons c rest ih =>
    obtain ⟨digit, others⟩ := List.forall_mem_cons.mp all
    have first : n.extend? position c.toNat =
        some { n.digit (c.toNat - '0'.toNat) .fraction with scale := n.scale + 1 } := by
      simp only [extend?, digit?_eq digit, mode]
    rw [List.map_cons, scan, first, Option.bind_some, ih _ others rfl, Nat.ofDigitChars_cons]
    simp only [NumberState.digit, mode, Nat.mul_comm, List.length_cons, Nat.add_assoc,
      Nat.add_comm 1]

theorem scan_exponent (all : ∀ c ∈ digits, c.isDigit = true) (mode : n.mode = .exponent) :
    n.scan position (digits.map Char.toNat) =
      some { n with exponent := ofDigitChars 10 digits n.exponent } := by
  induction digits generalizing n position with
  | nil => rfl
  | cons c rest ih =>
    obtain ⟨digit, others⟩ := List.forall_mem_cons.mp all
    have first : n.extend? position c.toNat =
        some { n with exponent := n.exponent * 10 + (c.toNat - '0'.toNat) } := by
      simp only [extend?, digit?_eq digit, mode]
    have later := ih (n := { n with exponent := n.exponent * 10 + (c.toNat - '0'.toNat) })
      (position + 1) others mode
    rw [List.map_cons, scan, first, Option.bind_some, later, Nat.ofDigitChars_cons]
    simp only [Nat.mul_comm]

theorem scan_sign (start : Nat) (negative : Bool) {c : Char} {rest : List Char}
    (all : ∀ d ∈ c :: rest, d.isDigit = true) (leads : c ≠ '0') :
    (whole start negative .sign 0).scan position ((c :: rest).map Char.toNat) =
      some (whole start negative .integer (ofDigitChars 10 (c :: rest) 0)) := by
  obtain ⟨digit, others⟩ := List.forall_mem_cons.mp all
  obtain ⟨d, value⟩ : ∃ d, c.toNat - '0'.toNat = d + 1 := by
    have bounds := digit_bounds digit
    have other : c.toNat ≠ 0x30 := fun same => leads (Char.toNat_inj.mp same)
    exact ⟨c.toNat - 0x31, by
      rw [show '0'.toNat = 0x30 from rfl]
      omega⟩
  have first : (whole start negative .sign 0).extend? position c.toNat =
      some (whole start negative .integer (d + 1)) := by
    simp only [extend?, digit?_eq digit, value, whole, NumberState.digit, Nat.zero_mul, Nat.zero_add]
  rw [List.map_cons, scan, first, Option.bind_some, scan_integer _ others rfl,
    Nat.ofDigitChars_cons, value]
  simp only [whole, Nat.mul_zero, Nat.zero_add]

theorem scan_point (all : ∀ c ∈ digits, c.isDigit = true) (present : digits ≠ [])
    (mode : n.mode = .zero ∨ n.mode = .integer) :
    n.scan position ('.'.toNat :: digits.map Char.toNat) =
      some { n with
        mode := .fraction, digits := ofDigitChars 10 digits n.digits, scale := digits.length,
        stop := position } := by
  obtain ⟨c, rest, rfl⟩ := List.exists_cons_of_ne_nil present
  obtain ⟨digit, others⟩ := List.forall_mem_cons.mp all
  have point : n.extend? position '.'.toNat = some { n with mode := .point, stop := position } := by
    rcases mode with mode | mode <;> simp [extend?, mode]
  have first : ({ n with mode := .point, stop := position } : NumberState).extend? (position + 1)
      c.toNat = some { n.digit (c.toNat - '0'.toNat) .fraction with scale := 1, stop := position } := by
    simp only [extend?, digit?_eq digit, NumberState.digit]
  rw [scan, point, Option.bind_some, List.map_cons, scan, first, Option.bind_some,
    scan_fraction _ others rfl, Nat.ofDigitChars_cons]
  simp only [NumberState.digit, Nat.mul_comm, List.length_cons, Nat.add_comm 1]

theorem scan_mark (all : ∀ c ∈ digits, c.isDigit = true) (present : digits ≠ [])
    (mode : n.mode = .integer ∨ n.mode = .fraction) (plain : n.exponentNegative = false)
    (downwards : Bool) :
    n.scan position
        ('e'.toNat :: (if downwards then '-'.toNat else '+'.toNat) :: digits.map Char.toNat) =
      some { n with
        mode := .exponent, exponentNegative := downwards, exponent := ofDigitChars 10 digits 0,
        stop := position } := by
  obtain ⟨c, rest, rfl⟩ := List.exists_cons_of_ne_nil present
  obtain ⟨digit, others⟩ := List.forall_mem_cons.mp all
  have mark : n.extend? position 'e'.toNat = some { n with mode := .mark, stop := position } := by
    rcases mode with mode | mode <;> simp [extend?, mode]
  have sign : ({ n with mode := .mark, stop := position } : NumberState).extend? (position + 1)
      (if downwards then '-'.toNat else '+'.toNat) =
        some { n with mode := .markSign, stop := position, exponentNegative := downwards } := by
    cases downwards with
    | false => simp [extend?, plain]
    | true => simp [extend?]
  have first : ({ n with mode := .markSign, stop := position, exponentNegative := downwards } :
      NumberState).extend? (position + 1 + 1) c.toNat =
        some { n with
          mode := .exponent, stop := position, exponentNegative := downwards,
          exponent := c.toNat - '0'.toNat } := by
    simp only [extend?, digit?_eq digit]
  rw [scan, mark, Option.bind_some, scan, sign, Option.bind_some, List.map_cons, scan, first,
    Option.bind_some, scan_exponent _ others rfl, Nat.ofDigitChars_cons]
  simp only [Nat.mul_zero, Nat.zero_add]

end Digits

section Integers

theorem head_toDigits {n : Nat} (nonzero : n ≠ 0) : (Nat.toDigits 10 n).head? ≠ some '0' := by
  induction n using Nat.strong_induction_on with
  | _ n ih =>
    rw [Nat.toDigits_eq_if (by decide)]
    split
    · next small =>
      have digits : ∀ d < 10, d ≠ 0 → Nat.digitChar d ≠ '0' := by decide
      simpa using digits n small nonzero
    · next large =>
      rw [List.head?_append, Option.or_of_isSome (by simp [Nat.toDigits_ne_nil])]
      exact ih (n / 10) (by omega) (by omega)

theorem isDigit_toDigits (n : Nat) : ∀ c ∈ Nat.toDigits 10 n, c.isDigit = true :=
  fun _ member => Nat.isDigit_of_mem_toDigits (by decide) (by decide) member

theorem ofDigitChars_toDigits (n : Nat) : ofDigitChars 10 (Nat.toDigits 10 n) 0 = n :=
  Nat.ofDigitChars_toDigits (by decide) (by decide)

variable (negative : Bool)

/-- Digits that begin like those of a number above zero. -/
theorem scan_whole (start position : Nat) {n : Nat} (nonzero : n ≠ 0) (digits : List Char)
    (all : ∀ c ∈ digits, c.isDigit = true) (present : digits ≠ [])
    (begins : digits.head? = (Nat.toDigits 10 n).head?) :
    (whole start negative .sign 0).scan position (digits.map Char.toNat) =
      some (whole start negative .integer (ofDigitChars 10 digits 0)) := by
  obtain ⟨c, rest, rfl⟩ := List.exists_cons_of_ne_nil present
  apply scan_sign position start negative all
  intro zero
  apply head_toDigits nonzero
  rw [← begins, zero]
  rfl

theorem denotes_ofNat (n : Nat) :
    Denotes negative (Text.ofNat n) (.int (if negative then -(n : Int) else n)) := by
  intro start position
  by_cases zero : n = 0
  · rw [zero]
    exact ⟨_, rfl, .inl rfl, by cases negative <;> rfl⟩
  · have read := scan_whole negative start position zero _ (isDigit_toDigits n)
      Nat.toDigits_ne_nil rfl
    refine ⟨_, read, .inr (.inl rfl), ?_⟩
    rw [ofDigitChars_toDigits]
    rfl

end Integers

section Decimals

variable (negative : Bool) {n : Nat} (nonzero : n ≠ 0)

private theorem zeros_map (count : Nat) :
    Text.copies count '0'.toNat = (List.replicate count '0').map Char.toNat :=
  List.map_replicate.symm

private theorem isDigit_zeros (count : Nat) :
    ∀ c ∈ List.replicate count '0', c.isDigit = true := by
  intro c member
  rw [List.eq_of_mem_replicate member]
  rfl

private theorem isDigit_append {front back : List Char}
    (first : ∀ c ∈ front, c.isDigit = true) (second : ∀ c ∈ back, c.isDigit = true) :
    ∀ c ∈ front ++ back, c.isDigit = true :=
  List.forall_mem_append.mpr ⟨first, second⟩

theorem denotes_below (zeros : Nat) :
    Denotes negative ("0." ++ Text.copies zeros '0'.toNat ++ Text.ofNat n)
      (.float (Binary64.ofDecimal negative n (-(zeros + (Text.ofNat n).length : Nat)))) := by
  intro start position
  have text : ("0." : Text) ++ Text.copies zeros '0'.toNat ++ Text.ofNat n =
      '0'.toNat :: '.'.toNat :: (List.replicate zeros '0' ++ Nat.toDigits 10 n).map Char.toNat := by
    rw [zeros_map, List.map_append]
    rfl
  have zero : (whole start negative .sign 0).extend? position '0'.toNat =
      some (whole start negative .zero 0) := rfl
  have value : ofDigitChars 10 (List.replicate zeros '0' ++ Nat.toDigits 10 n) 0 = n := by
    rw [Nat.ofDigitChars_append, Nat.ofDigitChars_replicate_zero, Nat.mul_zero,
      ofDigitChars_toDigits]
  have read := scan_point (n := whole start negative .zero 0) (position + 1)
    (isDigit_append (isDigit_zeros zeros) (isDigit_toDigits n))
    (List.append_ne_nil_of_right_ne_nil _ Nat.toDigits_ne_nil) (.inl rfl)
  rw [text, scan, zero, Option.bind_some, read]
  refine ⟨_, rfl, .inr (.inr (.inl rfl)), ?_⟩
  simp only [NumberState.value, whole, value, List.length_append, List.length_replicate,
    Text.ofNat, List.length_map]
  simp

include nonzero

theorem denotes_whole (zeros : Nat) :
    Denotes negative (Text.ofNat n ++ Text.copies zeros '0'.toNat ++ ".0")
      (.float (Binary64.ofDecimal negative n zeros)) := by
  intro start position
  have text : Text.ofNat n ++ Text.copies zeros '0'.toNat ++ ".0" =
      (Nat.toDigits 10 n ++ List.replicate zeros '0').map Char.toNat ++
        '.'.toNat :: (List.replicate 1 '0').map Char.toNat := by
    rw [zeros_map, List.map_append]
    rfl
  have value : ofDigitChars 10 (Nat.toDigits 10 n ++ List.replicate zeros '0') 0 =
      n * 10 ^ zeros := by
    rw [Nat.ofDigitChars_append, Nat.ofDigitChars_replicate_zero, ofDigitChars_toDigits,
      Nat.mul_comm]
  have front := scan_whole negative start position nonzero _
    (isDigit_append (isDigit_toDigits n) (isDigit_zeros zeros))
    (List.append_ne_nil_of_left_ne_nil Nat.toDigits_ne_nil _)
    (by rw [List.head?_append, Option.or_of_isSome (by simp [Nat.toDigits_ne_nil])])
  rw [text, scan_append, front, Option.bind_some,
    scan_point _ (isDigit_zeros 1) (by decide) (.inr rfl)]
  refine ⟨_, rfl, .inr (.inr (.inl rfl)), ?_⟩
  have fraction : ofDigitChars 10 (List.replicate 1 '0') (n * 10 ^ zeros) = n * 10 ^ (zeros + 1) := by
    rw [Nat.ofDigitChars_replicate_zero]
    ring
  simp only [NumberState.value, whole, value, fraction, Binary64.ofDecimal_mul_pow,
    List.length_replicate]
  simp

theorem denotes_between (point : Nat) (some : 0 < point) (short : point < (Text.ofNat n).length) :
    Denotes negative ((Text.ofNat n).take point ++ "." ++ (Text.ofNat n).drop point)
      (.float (Binary64.ofDecimal negative n (-((Text.ofNat n).length - point : Nat)))) := by
  intro start position
  have length : (Text.ofNat n).length = (Nat.toDigits 10 n).length := List.length_map ..
  have all := isDigit_toDigits n
  have text : (Text.ofNat n).take point ++ "." ++ (Text.ofNat n).drop point =
      ((Nat.toDigits 10 n).take point).map Char.toNat ++
        '.'.toNat :: ((Nat.toDigits 10 n).drop point).map Char.toNat := by
    rw [List.map_take, List.map_drop, List.append_assoc]
    rfl
  have front := scan_whole negative start position nonzero ((Nat.toDigits 10 n).take point)
    (fun c member => all c (List.mem_of_mem_take member))
    (by simp [Nat.toDigits_ne_nil, some.ne']) (by rw [List.head?_take, if_neg some.ne'])
  rw [text, scan_append, front, Option.bind_some, scan_point _
    (fun c member => all c (List.mem_of_mem_drop member))
    (by rwa [Ne, List.drop_eq_nil_iff, Nat.not_le, ← length]) (.inr rfl)]
  refine ⟨_, rfl, .inr (.inr (.inl rfl)), ?_⟩
  have value : ofDigitChars 10 ((Nat.toDigits 10 n).drop point)
      (ofDigitChars 10 ((Nat.toDigits 10 n).take point) 0) = n := by
    rw [← Nat.ofDigitChars_append, List.take_append_drop, ofDigitChars_toDigits]
  simp only [NumberState.value, whole, value, List.length_drop, ← length]
  simp

/-- The digits before the exponent, with a point after the first if there are more. -/
private theorem scan_mantissa (start position : Nat) : ∃ m : NumberState,
    (whole start negative .sign 0).scan position ((Text.ofNat n).take 1 ++
      (if (Text.ofNat n).length = 1 then ([] : Text) else "." ++ (Text.ofNat n).drop 1)) = some m ∧
    (m.mode = .integer ∨ m.mode = .fraction) ∧ m.negative = negative ∧ m.digits = n ∧
      m.scale = (Text.ofNat n).length - 1 ∧ m.exponentNegative = false := by
  have length : (Text.ofNat n).length = (Nat.toDigits 10 n).length := List.length_map ..
  have present : 0 < (Nat.toDigits 10 n).length := List.length_pos_iff.mpr Nat.toDigits_ne_nil
  have all := isDigit_toDigits n
  have text : (Text.ofNat n).take 1 = ((Nat.toDigits 10 n).take 1).map Char.toNat :=
    List.map_take.symm
  have front := scan_whole negative start position nonzero ((Nat.toDigits 10 n).take 1)
    (fun c member => all c (List.mem_of_mem_take member))
    (by simp [Nat.toDigits_ne_nil]) (by rw [List.head?_take, if_neg Nat.one_ne_zero])
  have value : ofDigitChars 10 ((Nat.toDigits 10 n).drop 1)
      (ofDigitChars 10 ((Nat.toDigits 10 n).take 1) 0) = n := by
    rw [← Nat.ofDigitChars_append, List.take_append_drop, ofDigitChars_toDigits]
  by_cases single : (Text.ofNat n).length = 1
  · rw [if_pos single, List.append_nil, text, front]
    rw [List.drop_eq_nil_of_le (by omega)] at value
    exact ⟨_, rfl, .inl rfl, rfl, value, by rw [single]; rfl, rfl⟩
  · have rest : ("." : Text) ++ (Text.ofNat n).drop 1 =
        '.'.toNat :: ((Nat.toDigits 10 n).drop 1).map Char.toNat := by
      rw [List.map_drop]
      rfl
    rw [if_neg single, rest, text, scan_append, front, Option.bind_some, scan_point _
      (fun c member => all c (List.mem_of_mem_drop member))
      (by rw [Ne, List.drop_eq_nil_iff]; omega) (.inr rfl)]
    exact ⟨_, rfl, .inr rfl, rfl, value, by rw [length, List.length_drop], rfl⟩

theorem denotes_scientific (power : Int) (zeros : Nat) :
    Denotes negative ((Text.ofNat n).take 1 ++
        (if (Text.ofNat n).length = 1 then ([] : Text) else "." ++ (Text.ofNat n).drop 1) ++ "e" ++
        (if power < 0 then ("-" : Text) else "+") ++ Text.copies zeros '0'.toNat ++
        Text.ofNat power.natAbs)
      (.float (Binary64.ofDecimal negative n (power - ((Text.ofNat n).length - 1 : Nat)))) := by
  intro start position
  obtain ⟨m, front, mode, sign, digits, scale, plain⟩ := scan_mantissa negative nonzero start position
  generalize (Text.ofNat n).take 1 ++ _ = mantissa at front ⊢
  have text : mantissa ++ ("e" : Text) ++ (if power < 0 then ("-" : Text) else "+") ++
      Text.copies zeros '0'.toNat ++ Text.ofNat power.natAbs =
        mantissa ++ 'e'.toNat ::
          (if decide (power < 0) = true then '-'.toNat else '+'.toNat) ::
            (List.replicate zeros '0' ++ Nat.toDigits 10 power.natAbs).map Char.toNat := by
    rw [zeros_map, List.map_append, List.append_assoc, List.append_assoc, List.append_assoc]
    by_cases low : power < 0
    · rw [if_pos low, if_pos (decide_eq_true low)]
      rfl
    · rw [if_neg low, if_neg (by simpa using low)]
      rfl
  have value : ofDigitChars 10 (List.replicate zeros '0' ++ Nat.toDigits 10 power.natAbs) 0 =
      power.natAbs := by
    rw [Nat.ofDigitChars_append, Nat.ofDigitChars_replicate_zero, Nat.mul_zero,
      ofDigitChars_toDigits]
  rw [text, scan_append, front, Option.bind_some, scan_mark _
    (isDigit_append (isDigit_zeros zeros) (isDigit_toDigits _))
    (List.append_ne_nil_of_right_ne_nil _ Nat.toDigits_ne_nil) mode plain]
  refine ⟨_, rfl, .inr (.inr (.inr rfl)), ?_⟩
  have signed : (if decide (power < 0) = true then -(power.natAbs : Int) else power.natAbs) =
      power := by
    by_cases low : power < 0
    · rw [if_pos (decide_eq_true low)]
      omega
    · rw [if_neg (by simpa using low)]
      omega
  simp only [NumberState.value, value, sign, digits, scale, signed]

end Decimals

theorem denotes_zero (negative : Bool) : Denotes negative "0.0" (.float (.zero negative)) := by
  intro start position
  refine ⟨_, rfl, .inr (.inr (.inl rfl)), ?_⟩
  rw [← Binary64.ofDecimal_zero negative (-1)]
  rfl

/-- However a decimal is laid out, it is read back from its text if whole numbers keep a point. -/
theorem denotes_write (layout : NumberLayout) (keeps : layout.keepPoint = true) (negative : Bool)
    (d : Decimal) (nonzero : d.digits ≠ 0) :
    Denotes negative (layout.write d)
      (.float (Binary64.ofDecimal negative d.digits d.exponent)) := by
  have present : 0 < (Text.ofNat d.digits).length :=
    Nat.lt_of_lt_of_eq (List.length_pos_iff.mpr Nat.toDigits_ne_nil) (List.length_map ..).symm
  unfold NumberLayout.write
  dsimp only
  generalize size : (Text.ofNat d.digits).length = count at present ⊢
  by_cases positional : layout.least ≤ count + d.exponent ∧ count + d.exponent ≤ layout.greatest
  · rw [if_pos positional]
    by_cases below : count + d.exponent ≤ 0
    · rw [if_pos below]
      have read := denotes_below negative (n := d.digits) (-(count + d.exponent)).toNat
      rwa [size, show -(((-(count + d.exponent)).toNat + count : Nat) : Int) = d.exponent
        by omega] at read
    rw [if_neg below]
    by_cases above : count ≤ count + d.exponent
    · rw [if_pos above, if_pos keeps]
      have read := denotes_whole negative nonzero (count + d.exponent - count).toNat
      rwa [show ((count + d.exponent - count).toNat : Int) = d.exponent by omega] at read
    · rw [if_neg above]
      have read := denotes_between negative nonzero (count + d.exponent).toNat
        (by omega) (by omega)
      rwa [size, show -((count - (count + d.exponent).toNat : Nat) : Int) = d.exponent
        by omega] at read
  · rw [if_neg positional, ← size]
    have read := denotes_scientific negative nonzero (count + d.exponent - 1)
      (2 - (Text.ofNat (count + d.exponent - 1).natAbs).length)
    rwa [show count + d.exponent - 1 - (((Text.ofNat d.digits).length - 1 : Nat) : Int) = d.exponent
      by omega, ← size] at read

end LintCorpus.Json.NumberState
