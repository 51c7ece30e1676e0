import LintCorpus.Text.Utf8
import Mathlib.Tactic.IntervalCases

/-!
Reading UTF-8 in parts. What was read before plays no role after a byte that stands for itself, so
bytes may be cut there; the bytes of a text are read back as that text; and whatever the bytes are,
no surrogate is read from them.
-/
namespace LintCorpus.Utf8

namespace Decoder

def after (d : Decoder) (earlier : Text) : Decoder := { d with output := d.output ++ earlier }

private theorem put_after (output earlier : Text) (o : Opening) :
    put (output ++ earlier) o = (put output o).after earlier := by
  cases o <;> rfl

private theorem step_after (d : Decoder) (earlier : Text) (b : UInt8) :
    (d.after earlier).step b = (d.step b).after earlier := by
  obtain ⟨output, pending⟩ := d
  cases pending with
  | none => exact put_after output earlier _
  | some p =>
    simp only [step, after]
    split
    · exact put_after output earlier _
    · exact put_after (replacement :: output) earlier _

private theorem foldl_after (bytes : Bytes) (d : Decoder) (earlier : Text) :
    bytes.foldl step (d.after earlier) = (bytes.foldl step d).after earlier := by
  induction bytes generalizing d with
  | nil => rfl
  | cons b rest ih => rw [List.foldl_cons, List.foldl_cons, step_after, ih]

private theorem finish_after (d : Decoder) (earlier : Text) :
    (d.after earlier).finish = earlier.reverse ++ d.finish := by
  obtain ⟨output, pending⟩ := d
  cases pending <;> simp [finish, after]

/-- Only bytes from 0x80 on continue a sequence. -/
def Sound (d : Decoder) : Prop := ∀ p, d.pending = some p → 0x80 ≤ p.low

end Decoder

private theorem decode_eq_of_foldl (front back : Bytes) (read : Text)
    (closed : front.foldl Decoder.step {} = { output := read }) :
    decode (front ++ back) = read.reverse ++ decode back := by
  have start : front.foldl Decoder.step {} = (Decoder.after {} read) := by
    rw [closed]
    rfl
  rw [decode, List.foldl_append, start, Decoder.foldl_after, Decoder.finish_after]
  rfl

private theorem byte_toNat (n : Nat) (small : n < 256) : (UInt8.ofNat n).toNat = n :=
  UInt8.toNat_ofNat_of_lt' small

private theorem opening_two (h : Nat) (low : 2 ≤ h) (high : h < 32) :
    opening (0xC0 + h) = .begins { value := h, missing := 1 } := by
  interval_cases h <;> rfl

private theorem opening_three (h : Nat) (high : h < 16) :
    opening (0xE0 + h) = .begins
      { value := h, missing := 2, low := if h = 0 then 0xA0 else 0x80,
        high := if h = 13 then 0x9F else 0xBF } := by
  interval_cases h <;> rfl

private theorem opening_four (h : Nat) (high : h < 5) :
    opening (0xF0 + h) = .begins
      { value := h, missing := 3, low := if h = 0 then 0x90 else 0x80,
        high := if h = 4 then 0x8F else 0xBF } := by
  interval_cases h <;> rfl

private theorem step_lead (b : Nat) (small : b < 256) :
    Decoder.step {} (UInt8.ofNat b) = Decoder.put [] (opening b) := by
  rw [Decoder.step, byte_toNat b small]

private theorem step_continuation (p : Pending) (n : Nat)
    (low : p.low ≤ 0x80 + n % 64) (high : 0x80 + n % 64 ≤ p.high) :
    Decoder.step { pending := some p } (UInt8.ofNat (0x80 + n % 64)) =
      Decoder.put [] (if p.missing ≤ 1 then .complete (p.value * 64 + n % 64)
        else .begins { value := p.value * 64 + n % 64, missing := p.missing - 1 }) := by
  have fits : p.accepts (0x80 + n % 64) = true := by simp [Pending.accepts, low, high]
  have small : 0x80 + n % 64 < 256 := by omega
  simp only [Decoder.step, byte_toNat _ small, fits, if_true, Pending.extend, Nat.add_sub_cancel_left]

theorem foldl_encodeOne (c : Nat) (valid : c.isValidChar) :
    (encodeOne c).foldl Decoder.step {} = { output := [c] } := by
  have bounds : c < 0xD800 ∨ 0xDFFF < c ∧ c < 0x110000 := valid
  unfold encodeOne
  dsimp only
  split_ifs with one two three
  · rw [List.foldl_cons, step_lead c (by omega), opening, if_pos one]
    rfl
  · have lead := opening_two (c / 64) (by omega) (by omega)
    rw [List.foldl_cons, step_lead _ (by omega), lead, List.foldl_cons, Decoder.put,
      step_continuation _ c (by simp) (by simp; omega)]
    have whole : c / 64 * 64 + c % 64 = c := by omega
    simp [Decoder.put, whole]
  · have lead := opening_three (c / 4096) (by omega)
    rw [List.foldl_cons, step_lead _ (by omega), lead, List.foldl_cons, Decoder.put,
      step_continuation _ (c / 64) (by dsimp only; split <;> omega) (by dsimp only; split <;> omega)]
    have middle : c / 4096 * 64 + c / 64 % 64 = c / 64 := by omega
    have whole : c / 64 * 64 + c % 64 = c := by omega
    rw [if_neg (by simp), Decoder.put, List.foldl_cons,
      step_continuation _ c (by simp) (by simp; omega)]
    simp [Decoder.put, middle, whole]
  · have lead := opening_four (c / 262144) (by omega)
    rw [List.foldl_cons, step_lead _ (by omega), lead, List.foldl_cons, Decoder.put,
      step_continuation _ (c / 4096) (by dsimp only; split <;> omega) (by dsimp only; split <;> omega)]
    have upper : c / 262144 * 64 + c / 4096 % 64 = c / 4096 := by omega
    have middle : c / 4096 * 64 + c / 64 % 64 = c / 64 := by omega
    have whole : c / 64 * 64 + c % 64 = c := by omega
    rw [if_neg (by simp), Decoder.put, List.foldl_cons,
      step_continuation _ (c / 64) (by simp) (by simp; omega), if_neg (by simp), Decoder.put,
      List.foldl_cons, step_continuation _ c (by simp) (by simp; omega)]
    simp [Decoder.put, upper, middle, whole]

theorem decode_encode (t : Text) (valid : ∀ c ∈ t, c.isValidChar) : decode (encode t) = t := by
  induction t with
  | nil => rfl
  | cons c rest ih =>
    have first := foldl_encodeOne c (valid c (by simp))
    have others := ih fun d member => valid d (by simp [member])
    rw [encode, List.flatMap_cons, decode_eq_of_foldl _ _ _ first]
    exact congrArg (c :: ·) others

/-- Whatever completes a sequence, it amounts to a character. -/
structure Pending.Bounded (p : Pending) : Prop where
  missing : p.missing = 1 ∨ p.missing = 2 ∨ p.missing = 3
  low : 0x80 ≤ p.low
  high : p.high ≤ 0xBF
  range : let span := 64 ^ (p.missing - 1)
    let first := (p.value * 64 + (p.low - 0x80)) * span
    let last := (p.value * 64 + (p.high - 0x80)) * span + (span - 1)
    last < 0xD800 ∨ 0xDFFF < first ∧ last < 0x110000

def Opening.Valid : Opening → Prop
  | .complete c => c.isValidChar
  | .begins p => p.Bounded
  | .nothing => True

private theorem opening_valid (b : Nat) : (opening b).Valid := by
  -- The bounds of the second byte keep surrogates and too large numbers out of the range.
  unfold opening
  split_ifs
  · exact .inl (by omega)
  · trivial
  all_goals first
    | trivial
    | exact ⟨by simp, by simp, by simp, by dsimp only; omega⟩

private theorem extend_valid (p : Pending) (bounded : p.Bounded) (b : Nat)
    (accepted : p.accepts b = true) : (p.extend b).Valid := by
  obtain ⟨missing, low, high, range⟩ := bounded
  simp only [Pending.accepts, Bool.and_eq_true, decide_eq_true_eq] at accepted
  unfold Pending.extend
  rcases missing with one | two | three
  · rw [one] at range
    rw [if_pos (by omega)]
    show _ ∨ _
    omega
  · rw [two] at range
    rw [if_neg (by omega)]
    refine ⟨by simp [two], by simp, by simp, ?_⟩
    simp only [two]
    omega
  · rw [three] at range
    rw [if_neg (by omega)]
    refine ⟨by simp [three], by simp, by simp, ?_⟩
    simp only [three]
    omega

structure Decoder.Valid (d : Decoder) : Prop where
  output : ∀ c ∈ d.output, c.isValidChar
  pending : ∀ p, d.pending = some p → p.Bounded

private theorem replacement_valid : replacement.isValidChar := .inr (by decide)

private theorem put_valid (output : Text) (valid : ∀ c ∈ output, c.isValidChar) (o : Opening)
    (opened : o.Valid) : (Decoder.put output o).Valid := by
  cases o with
  | complete c => exact ⟨List.forall_mem_cons.mpr ⟨opened, valid⟩, nofun⟩
  | begins p =>
    refine ⟨valid, fun q pending => ?_⟩
    cases pending
    exact opened
  | nothing => exact ⟨List.forall_mem_cons.mpr ⟨replacement_valid, valid⟩, nofun⟩

private theorem step_valid (d : Decoder) (valid : d.Valid) (b : UInt8) : (d.step b).Valid := by
  unfold Decoder.step
  split
  · exact put_valid _ valid.output _ (opening_valid _)
  next p pending =>
    split
    next accepted =>
      exact put_valid _ valid.output _ (extend_valid p (valid.pending p pending) _ accepted)
    · exact put_valid _ (List.forall_mem_cons.mpr ⟨replacement_valid, valid.output⟩) _
        (opening_valid _)

private theorem foldl_valid (bytes : Bytes) (d : Decoder) (valid : d.Valid) :
    (bytes.foldl Decoder.step d).Valid := by
  induction bytes generalizing d with
  | nil => exact valid
  | cons b rest ih => exact ih _ (step_valid d valid b)

theorem decode_valid (bytes : Bytes) : ∀ c ∈ decode bytes, c.isValidChar := by
  have valid := foldl_valid bytes {} ⟨nofun, nofun⟩
  intro c member
  rw [decode, Decoder.finish, List.mem_reverse] at member
  split at member
  · exact List.forall_mem_cons.mpr ⟨replacement_valid, valid.output⟩ c member
  · exact valid.output c member

theorem decodeStrict_valid (bytes : Bytes) (content : Text)
    (decoded : decodeStrict bytes = .ok content) : ∀ c ∈ content, c.isValidChar := by
  rcases outcome : check bytes with fault | _
  · rw [decodeStrict, outcome] at decoded
    cases decoded
  · rw [decodeStrict, outcome] at decoded
    cases decoded
    exact decode_valid bytes

end LintCorpus.Utf8
