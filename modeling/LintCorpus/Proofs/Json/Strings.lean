import LintCorpus.Json.Writer
import LintCorpus.Json.Reader
import Mathlib.Tactic.SplitIfs

/-!
Strings in JSON. Every code point is read back from its escape, one above the basic plane from the
pair that stands for it, so a text comes back as it was if it holds characters only.
-/
namespace LintCorpus

/-- A text of scalar values, with no lone surrogates among them. -/
def Text.Scalar (t : Text) : Prop := ∀ c ∈ t, c.isValidChar

instance (t : Text) : Decidable t.Scalar :=
  inferInstanceAs (Decidable (∀ c ∈ t, c.isValidChar))

theorem Text.hex_succ (width n : Nat) (positive : 0 < width) :
    Text.hex (width + 1) n = Text.hex width (n / 16) ++ [(Nat.digitChar (n % 16)).toNat] := by
  simp only [Text.hex, Text.copies]
  rw [Nat.toDigits_eq_if (b := 16) (n := n) (by decide)]
  split
  · next small =>
    rw [Nat.div_eq_of_lt small, Nat.mod_eq_of_lt small]
    have zero : Nat.toDigits 16 0 = ['0'] := rfl
    rw [zero]
    obtain ⟨width, rfl⟩ := Nat.exists_eq_add_of_lt positive
    simp [List.replicate_succ']
  · next large =>
    simp

theorem Text.hex_four {n : Nat} (small : n < 0x10000) :
    Text.hex 4 n = [n / 16 / 16 / 16, n / 16 / 16 % 16, n / 16 % 16, n % 16].map fun d =>
      (Nat.digitChar d).toNat := by
  have single : ∀ d < 16, Text.hex 1 d = [(Nat.digitChar d).toNat] := by decide
  rw [Text.hex_succ 3 _ (by decide), Text.hex_succ 2 _ (by decide), Text.hex_succ 1 _ (by decide),
    single _ (by omega)]
  rfl

namespace Json

theorem hexValue?_digitChar : ∀ d < 16, hexValue? (Nat.digitChar d).toNat = some d := by decide

namespace Reader

theorem foldlM_append_of_ok {front : Text} {r middle : Reader}
    (taken : front.foldlM step r = .ok middle) (back : Text) :
    (front ++ back).foldlM step r = back.foldlM step middle := by
  rw [List.foldlM_append, taken]
  rfl

theorem foldlM_cons_of_ok {c : Nat} {r next : Reader} (taken : r.step c = .ok next)
    (rest : Text) : (c :: rest).foldlM step r = rest.foldlM step next := by
  rw [List.foldlM_cons, taken]
  rfl

variable {r : Reader} {s : StringState}

private theorem step_backslash {unicode : Option Nat} (phase : r.phase = .string s)
    (mode : s.mode = .plain unicode) :
    r.step '\\'.toNat =
      .ok (r.advance (.string { s with mode := .backslash (s.joins unicode) })) := by
  simp only [step, phase, stepString, mode]
  rfl

section Escapes

variable {joins : Bool} {place count value d : Nat} (phase : r.phase = .string s) (small : d < 16)

include phase small

private theorem step_hex (mode : s.mode = .hex joins place count value) (more : count < 3) :
    r.step (Nat.digitChar d).toNat =
      .ok (r.advance (.string { s with mode := .hex joins place (count + 1) (value * 16 + d) })) := by
  simp only [step, phase, stepString, mode, hexValue?_digitChar d small, more, if_true]

private theorem step_hex_last (mode : s.mode = .hex joins place 3 value) :
    r.step (Nat.digitChar d).toNat =
      .ok (r.advance (.string (s.push joins place (value * 16 + d)))) := by
  simp only [step, phase, stepString, mode, hexValue?_digitChar d small, Nat.lt_irrefl, if_false]

end Escapes

theorem foldlM_unicodeEscape {n : Nat} (small : n < 0x10000) {unicode : Option Nat}
    (phase : r.phase = .string s) (mode : s.mode = .plain unicode) :
    ∃ position place, (unicodeEscape n).foldlM step r =
      .ok { r with position, phase := .string (s.push (s.joins unicode) place n) } := by
  have digits : unicodeEscape n = '\\'.toNat :: 'u'.toNat :: Text.hex 4 n := rfl
  have value : (((n / 16 / 16 / 16) * 16 + n / 16 / 16 % 16) * 16 + n / 16 % 16) * 16 + n % 16 = n := by
    omega
  rw [digits, Text.hex_four small, foldlM_cons_of_ok (step_backslash phase mode), List.map_cons,
    List.map_cons, List.map_cons, List.map_cons, foldlM_cons_of_ok rfl,
    foldlM_cons_of_ok (step_hex rfl (by omega) rfl (by decide)),
    foldlM_cons_of_ok (step_hex rfl (by omega) rfl (by decide)),
    foldlM_cons_of_ok (step_hex rfl (by omega) rfl (by decide)),
    foldlM_cons_of_ok (step_hex_last rfl (by omega) rfl)]
  simp only [Nat.zero_mul, Nat.zero_add, value]
  exact ⟨r.position + 6, r.position + 1, rfl⟩

private theorem push_apart (place value : Nat) :
    s.push false place value =
      { s with content := value :: s.content, mode := .plain (some place) } := by
  unfold StringState.push
  split <;> simp_all

private theorem push_pair {high : Nat} {rest : Text} (content : s.content = high :: rest)
    (place value : Nat) (low : isLowSurrogate value = true) :
    s.push true place value =
      { s with
        content := (0x10000 + (high - 0xD800) * 0x400 + (value - 0xDC00)) :: rest
        mode := .plain (some place) } := by
  simp only [StringState.push, content, low, Bool.and_self, if_true]

private theorem joins_eq_false (valid : s.content.Scalar) (unicode : Option Nat) :
    s.joins unicode = false := by
  have apart : s.content.head?.any isHighSurrogate = false := by
    cases content : s.content with
    | nil => rfl
    | cons d rest =>
      have bounds : d < 0xD800 ∨ 0xDFFF < d ∧ d < 0x110000 := valid d (by simp [content])
      simp only [List.head?_cons, Option.any_some, isHighSurrogate, Bool.and_eq_false_iff,
        decide_eq_false_iff_not]
      omega
  rw [StringState.joins, apart, Bool.and_false]

/-- A code point above the basic plane is read back from the two escapes that stand for it. -/
private theorem foldlM_pair {high low c : Nat} {unicode : Option Nat} (phase : r.phase = .string s)
    (mode : s.mode = .plain unicode) (apart : s.joins unicode = false)
    (first : 0xD800 ≤ high ∧ high ≤ 0xDBFF) (second : 0xDC00 ≤ low ∧ low ≤ 0xDFFF)
    (whole : 0x10000 + (high - 0xD800) * 0x400 + (low - 0xDC00) = c) :
    ∃ position unicode, (unicodeEscape high ++ unicodeEscape low).foldlM step r =
      .ok { r with
        position
        phase := .string { s with content := c :: s.content, mode := .plain unicode } } := by
  have isLow : isLowSurrogate low = true := by simp [isLowSurrogate, second]
  obtain ⟨position, place, taken⟩ := foldlM_unicodeEscape (n := high) (by omega) phase mode
  rw [apart, push_apart] at taken
  let between : StringState :=
    { s with content := high :: s.content, mode := .plain (some place) }
  have joins : between.joins (some place) = true := by
    simp [between, StringState.joins, isHighSurrogate, first]
  obtain ⟨last, next, joined⟩ := foldlM_unicodeEscape (n := low) (by omega)
    (r := { r with position, phase := .string between }) rfl rfl
  rw [joins, push_pair rfl next low isLow, whole] at joined
  exact ⟨_, _, (foldlM_append_of_ok taken _).trans joined⟩

theorem foldlM_escapeOne {c : Nat} (valid : c.isValidChar) {unicode : Option Nat}
    (phase : r.phase = .string s) (mode : s.mode = .plain unicode)
    (earlier : s.content.Scalar) :
    ∃ position unicode, (escapeOne c).foldlM step r =
      .ok { r with
        position
        phase := .string { s with content := c :: s.content, mode := .plain unicode } } := by
  have apart := joins_eq_false earlier unicode
  have letter : ∀ l d, escaped? l = some d → l ≠ 'u'.toNat →
      ['\\'.toNat, l].foldlM step r = .ok { r with
        position := r.position + 2
        phase := .string { s with content := d :: s.content, mode := .plain none } } := by
    intro l d denotes other
    rw [foldlM_cons_of_ok (step_backslash phase mode)]
    have taken : (r.advance (.string { s with mode := .backslash (s.joins unicode) })).step l =
        .ok { r with
          position := r.position + 2
          phase := .string { s with content := d :: s.content, mode := .plain none } } := by
      simp only [step, advance, stepString, other, if_false, denotes]
    rw [foldlM_cons_of_ok taken]
    rfl
  unfold escapeOne
  split_ifs with mark visible feed ret tab form back basic
  · have itself : escaped? c = some c ∧ c ≠ 'u'.toNat := by
      simp only [Bool.or_eq_true, decide_eq_true_eq] at mark
      rcases mark with rfl | rfl <;> exact ⟨rfl, by decide⟩
    exact ⟨_, _, letter c c itself.1 itself.2⟩
  · have plain : c ≠ '"'.toNat ∧ c ≠ '\\'.toNat ∧ ¬c < 0x20 := by
      simp only [Bool.or_eq_true, Bool.and_eq_true, decide_eq_true_eq, not_or] at mark visible
      exact ⟨mark.1, mark.2, by omega⟩
    have taken : r.step c = .ok (r.advance (.string
        { s with content := c :: s.content, mode := .plain none })) := by
      simp only [step, phase, stepString, mode, plain, if_false]
    rw [foldlM_cons_of_ok taken]
    exact ⟨_, _, rfl⟩
  · rw [feed]
    exact ⟨_, _, letter 'n'.toNat 0x0A rfl (by decide)⟩
  · rw [ret]
    exact ⟨_, _, letter 'r'.toNat 0x0D rfl (by decide)⟩
  · rw [tab]
    exact ⟨_, _, letter 't'.toNat 0x09 rfl (by decide)⟩
  · rw [form]
    exact ⟨_, _, letter 'f'.toNat 0x0C rfl (by decide)⟩
  · rw [back]
    exact ⟨_, _, letter 'b'.toNat 0x08 rfl (by decide)⟩
  · obtain ⟨position, place, taken⟩ := foldlM_unicodeEscape basic phase mode
    rw [taken, apart, push_apart]
    exact ⟨_, _, rfl⟩
  · have bounds : c < 0xD800 ∨ 0xDFFF < c ∧ c < 0x110000 := valid
    exact foldlM_pair phase mode apart (by omega) (by omega) (by omega)

theorem foldlM_escaped {t : Text} (valid : t.Scalar) {unicode : Option Nat}
    (phase : r.phase = .string s) (mode : s.mode = .plain unicode) (earlier : s.content.Scalar) :
    ∃ position unicode, (t.flatMap escapeOne).foldlM step r =
      .ok { r with
        position
        phase := .string { s with content := t.reverse ++ s.content, mode := .plain unicode } } := by
  induction t generalizing r s unicode with
  | nil =>
    refine ⟨r.position, unicode, ?_⟩
    rw [List.reverse_nil, List.nil_append, ← mode, ← phase]
    rfl
  | cons c rest ih =>
    obtain ⟨first, others⟩ := List.forall_mem_cons.mp valid
    obtain ⟨position, next, taken⟩ := foldlM_escapeOne first phase mode earlier
    have more : Text.Scalar (c :: s.content) := List.forall_mem_cons.mpr ⟨first, earlier⟩
    obtain ⟨last, final, remaining⟩ := ih others
      (r := { r with
        position
        phase := .string { s with content := c :: s.content, mode := .plain next } }) rfl rfl more
    refine ⟨last, final, ?_⟩
    rw [List.flatMap_cons, foldlM_append_of_ok taken, remaining, List.reverse_cons,
      List.append_assoc]
    rfl

/-- Completing a value does not depend on where the reader is or what it is in the middle of. -/
theorem complete_moved (r : Reader) (position : Nat) (phase : Phase) (v : Value) :
    ({ r with position, phase } : Reader).complete v = { r.complete v with position } := by
  obtain ⟨_, stack, _, _⟩ := r
  rcases stack with - | ⟨⟨items⟩ | ⟨members, name⟩, rest⟩ <;> rfl

private theorem foldlM_quoted {t : Text} (valid : t.Scalar) (isName : Bool)
    (opens : r.step '"'.toNat =
      .ok (r.advance (.string ⟨r.position, isName, [], .plain none⟩))) :
    ∃ position start unicode, (writeText t).foldlM step r = Reader.step { r with
      position
      phase := .string ⟨start, isName, t.reverse, .plain unicode⟩ } '"'.toNat := by
  obtain ⟨position, unicode, taken⟩ := foldlM_escaped valid
    (r := r.advance (.string ⟨r.position, isName, [], .plain none⟩)) rfl rfl (by simp [Text.Scalar])
  rw [List.append_nil] at taken
  have quoted : writeText t = '"'.toNat :: (t.flatMap escapeOne ++ ['"'.toNat]) := rfl
  refine ⟨position, r.position, unicode, ?_⟩
  rw [quoted, foldlM_cons_of_ok opens, foldlM_append_of_ok taken, List.foldlM_cons]
  exact bind_pure _

theorem foldlM_text {t : Text} (valid : t.Scalar) {canClose : Bool}
    (phase : r.phase = .value canClose) :
    ∃ position, (writeText t).foldlM step r = .ok { r.complete (.text t) with position } := by
  have opens : r.step '"'.toNat =
      .ok (r.advance (.string ⟨r.position, false, [], .plain none⟩)) := by
    rw [step, phase]
    rfl
  obtain ⟨position, start, unicode, taken⟩ := foldlM_quoted valid false opens
  refine ⟨position + 1, ?_⟩
  have last : Reader.step { r with
      position
      phase := .string ⟨start, false, t.reverse, .plain unicode⟩ } '"'.toNat =
        .ok { ({ r with
          position
          phase := .string ⟨start, false, t.reverse, .plain unicode⟩ } : Reader).complete
            (.text t.reverse.reverse) with position := position + 1 } := rfl
  rw [taken, last, complete_moved, List.reverse_reverse]

theorem foldlM_name {t : Text} (valid : t.Scalar) {canClose : Bool}
    (phase : r.phase = .name canClose) {members : List (Text × Value)} {old : Text}
    {rest : List Frame} (stack : r.stack = .object members old :: rest) :
    ∃ position, (writeText t).foldlM step r =
      .ok { r with position, phase := .colon, stack := .object members t :: rest } := by
  have opens : r.step '"'.toNat =
      .ok (r.advance (.string ⟨r.position, true, [], .plain none⟩)) := by
    rw [step, phase]
    rfl
  obtain ⟨position, start, unicode, taken⟩ := foldlM_quoted valid true opens
  refine ⟨position + 1, ?_⟩
  rw [taken]
  simp only [step, stepString, finishString, stack, List.reverse_reverse, if_true]

end Reader
end Json
end LintCorpus
