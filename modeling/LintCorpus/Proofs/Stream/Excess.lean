import LintCorpus.Proofs.Json.Limits
import LintCorpus.Proofs.Json.RoundTrip
import LintCorpus.Proofs.Stream.Start
import LintCorpus.Proofs.Text.Utf8

/-!
A record beyond the limits. An object with one member, an integer, is well-formed however many
digits the integer has, but with too many it stops the reader of a stream.
-/
namespace LintCorpus

theorem Text.lt_length_ofNat {count n : Nat} (positive : 0 < count) (large : 10 ^ count ≤ n) :
    count < (Text.ofNat n).length := by
  rw [Text.ofNat, List.length_map, ← Nat.not_le, Nat.length_toDigits_le_iff (by decide) positive]
  exact Nat.not_lt.mpr large

namespace Json

def integerStart : Text := "\x7b\"a\":"

def integerRecord (n : Nat) : Text := integerStart ++ Text.ofNat n ++ "\x7d"

namespace Reader

open NumberState

private def due : Reader := ⟨5, [.object [] "a"], .value false, .null⟩

private theorem foldlM_start : integerStart.foldlM step {} = .ok due := rfl

private theorem foldlM_digits {n : Nat} (nonzero : n ≠ 0) :
    ∃ position, (integerStart ++ Text.ofNat n).foldlM step {} =
      .ok { due with position, phase := .number (whole 5 false .integer n) } := by
  have scanned := scan_whole false 5 5 nonzero _ (isDigit_toDigits n) Nat.toDigits_ne_nil rfl
  rw [ofDigitChars_toDigits] at scanned
  cases digits : (Nat.toDigits 10 n).map Char.toNat with
  | nil => exact absurd (List.map_eq_nil_iff.mp digits) Nat.toDigits_ne_nil
  | cons c rest =>
    rw [digits, scan, Option.bind_eq_some_iff] at scanned
    obtain ⟨m, extended, remaining⟩ := scanned
    have taken := foldlM_number (r := due.advance (.number m)) rfl remaining
    have begun := foldlM_cons_of_ok (step_digit (r := due) rfl extended) rest
    refine ⟨6 + rest.length, ?_⟩
    rw [foldlM_append_of_ok foldlM_start, Text.ofNat, digits, begun, taken]
    rfl

end Reader

variable {limits : Limits} {n : Nat}

theorem read_integerRecord (n : Nat) : read (integerRecord n) = .ok (.object [("a", .int n)]) := by
  have reads := Reader.reads_of_denotes (NumberState.denotes_ofNat false n)
  obtain ⟨moved, taken⟩ := reads Reader.due false rfl '\x7d'.toNat [] (.inr (.inr (.inr rfl)))
  have whole : integerRecord n = integerStart ++ (Text.ofNat n ++ ['\x7d'.toNat]) :=
    List.append_assoc _ _ _
  have unmarked : (integerRecord n).head? ≠ some 0xFEFF := by simp [whole, integerStart, Text.ofString]
  rw [read, if_neg unmarked, whole, Reader.foldlM_append_of_ok Reader.foldlM_start, taken]
  rfl

/-- A limit on digits is kept. -/
theorem exceeding_integerRecord (positive : 0 < limits.digits) (large : 10 ^ limits.digits ≤ n) :
    ∃ excess, load limits (integerRecord n) = .error (.exceeding excess) := by
  have nonzero : n ≠ 0 := Nat.ne_of_gt (Nat.lt_of_lt_of_le (Nat.pow_pos (by decide)) large)
  have long := Text.lt_length_ofNat positive large
  rcases load_cases limits (integerRecord n) with beyond | same
  · exact beyond
  · exfalso
    rw [read_integerRecord] at same
    have loaded : load limits ((integerStart ++ Text.ofNat n) ++ ['\x7d'.toNat]) =
        .ok (.object [("a", .int n)]) := same
    obtain ⟨position, taken⟩ := Reader.foldlM_digits nonzero
    have within := number_of_load loaded taken rfl rfl
    simp [NumberState.excess?, NumberState.isInteger, NumberState.whole, long] at within

end Json

namespace StreamReader

open Json (integerRecord)

variable {limits : StreamLimits} {n : Nat}

private theorem mem_integerRecord {c : Nat} (member : c ∈ integerRecord n) :
    0x22 ≤ c ∧ c ≤ 0x3A ∨ c = 0x61 ∨ c = 0x7B ∨ c = 0x7D := by
  have known : ∀ c ∈ Json.integerStart, 0x22 ≤ c ∧ c ≤ 0x3A ∨ c = 0x61 ∨ c = 0x7B ∨ c = 0x7D := by
    decide
  rcases List.mem_append.mp member with front | closes
  · rcases List.mem_append.mp front with start | digit
    · exact known c start
    · obtain ⟨d, among, rfl⟩ := List.mem_map.mp digit
      have bounds := Json.NumberState.digit_bounds (Json.NumberState.isDigit_toDigits n d among)
      omega
  · obtain rfl := List.mem_singleton.mp closes
    decide

/-- A line with a record of too long an integer stops the reader. -/
theorem read_integerRecord (positive : 0 < limits.digits) (large : 10 ^ limits.digits ≤ n) :
    ∃ excess, read limits {} (Utf8.encode (integerRecord n ++ [0x0A])) =
      ({ mode := .seeking }, [.started 1, .stopped excess]) := by
  have begins : (integerRecord n).startsWith "\x7b" = true := rfl
  have valid : ∀ c ∈ integerRecord n ++ [0x0A], c.isValidChar := by
    intro c member
    rcases List.mem_append.mp member with inside | feed
    · have bounds := mem_integerRecord inside
      exact .inl (by omega)
    · obtain rfl := List.mem_singleton.mp feed
      decide
  have plain : ∀ c ∈ integerRecord n, Text.endsLine c = false := by
    intro c member
    have bounds := mem_integerRecord member
    simp [Text.endsLine]
    omega
  obtain ⟨rest, lines⟩ := Text.lines_first (integerRecord n) plain 0x0A rfl []
  obtain ⟨excess, beyond⟩ := Json.exceeding_integerRecord positive large
  have stopped : step limits {} 1 (integerRecord n) =
      ({ mode := .seeking }, [.started 1, .stopped excess]) := by
    have closed : (Scanner.feed {} (integerRecord n)).depth = 0 := by
      rw [Json.feed_object begins (Json.read_integerRecord n)]
    rw [step_begin limits {} 1 _ (by simp) begins, begin, if_pos closed, decode, beyond]
  refine ⟨excess, ?_⟩
  rw [read_eq, Utf8.decode_encode _ valid, lines, reached, stopped, if_neg (by simp [StreamEvent.stops])]
  simp [toEnd, after_cons, events_cons, stopped, finish]

end StreamReader
end LintCorpus
