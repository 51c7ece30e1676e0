import LintCorpus.Proofs.Stream.Reuse
import Mathlib.Data.List.Induction

/-!
What the reader is between two lines. Inside a record it is what the lines of that record alone make
of it, and outside it holds nothing. Which record is open is told by the lines: the one that an
earlier line starts, if it is left open by that line and by each line behind it.
-/
namespace LintCorpus.StreamReader

/-- The reader inside a record of which the lines `block` are read, the first of them with the
given number. -/
def holding (number : Nat) (block : List Text) : StreamReader where
  mode := .inRecord
  buffer := block.reverse
  size := (Text.join [0x0A] block).length
  startLine := number
  scanner := block.foldl Scanner.feed {}

/-- Lines that leave the record of the first one open: no other begins a record, braces are open
behind each of them, and two or more of them are within the limit. -/
structure Unclosed (limits : StreamLimits) (block : List Text) : Prop where
  continues : ∀ line ∈ block.tail, line.startsWith "\x7b\"" = false
  deep : ∀ front, front ≠ [] → front <+: block → 0 < (front.foldl Scanner.feed {}).depth
  fits : 1 < block.length → ((Text.join [0x0A] block).length : Int) ≤ limits.size

variable {limits : StreamLimits} {r start : StreamReader} {number : Nat} {line first : Text}
  {block earlier rest : List Text}

private theorem foldl_feed_concat (s : Scanner) (block : List Text) (line : Text) :
    (block ++ [line]).foldl Scanner.feed s = (block.foldl Scanner.feed s).feed line := by
  rw [List.foldl_append, List.foldl_cons, List.foldl_nil]

private theorem length_join_concat (present : block ≠ []) (line : Text) :
    (Text.join [0x0A] (block ++ [line])).length =
      (Text.join [0x0A] block).length + line.length + 1 := by
  rw [Text.join_append _ _ _ present (by simp), Text.join_singleton, List.length_append,
    List.length_append, List.length_singleton]
  omega

theorem unclosed_singleton : Unclosed limits [line] ↔ 0 < (Scanner.feed {} line).depth := by
  constructor
  · intro unclosed
    exact unclosed.deep [line] (by simp) List.prefix_rfl
  · intro opens
    refine ⟨by simp, fun front nonempty begins => ?_, by simp⟩
    have whole : front = [line] := by
      obtain ⟨c, others, rfl⟩ := List.exists_cons_of_ne_nil nonempty
      obtain ⟨rfl, before⟩ := List.cons_prefix_cons.mp begins
      rw [List.prefix_nil.mp before]
    rw [whole]
    exact opens

theorem unclosed_concat (present : block ≠ []) :
    Unclosed limits (block ++ [line]) ↔ Unclosed limits block ∧ line.startsWith "\x7b\"" = false ∧
      ((Text.join [0x0A] block).length : Int) + line.length + 1 ≤ limits.size ∧
        0 < ((block.foldl Scanner.feed {}).feed line).depth := by
  have size := length_join_concat present line
  have more : 1 < (block ++ [line]).length := by
    rw [List.length_append, List.length_singleton]
    exact Nat.succ_lt_succ (List.length_pos_of_ne_nil present)
  have others : (block ++ [line]).tail = block.tail ++ [line] := List.tail_append_of_ne_nil present
  constructor
  · intro unclosed
    have fits := unclosed.fits more
    refine ⟨⟨fun other among => ?_, fun front nonempty begins => ?_, fun _ => by omega⟩, ?_, by omega, ?_⟩
    · exact unclosed.continues other (others ▸ List.mem_append_left _ among)
    · exact unclosed.deep front nonempty (begins.trans (List.prefix_append _ _))
    · exact unclosed.continues line (others ▸ List.mem_append_right _ List.mem_cons_self)
    · rw [← foldl_feed_concat]
      exact unclosed.deep _ (by simp) List.prefix_rfl
  · rintro ⟨unclosed, continues, fits, deep⟩
    refine ⟨fun other among => ?_, fun front nonempty begins => ?_, fun _ => by omega⟩
    · rw [others, List.mem_append, List.mem_singleton] at among
      rcases among with before | rfl
      · exact unclosed.continues other before
      · exact continues
    · rcases List.prefix_concat_iff.mp begins with rfl | before
      · rw [foldl_feed_concat]
        exact deep
      · exact unclosed.deep front nonempty before

theorem begin_holding (opens : 0 < (Scanner.feed {} line).depth) :
    (begin limits line number).1 = holding number [line] := by
  have size : (Text.join [0x0A] [line]).length = line.length :=
    congrArg List.length (Text.join_singleton _ _)
  rw [begin_open limits number opens, holding, size]
  rfl

theorem grown_holding (present : block ≠ []) (line : Text) :
    (holding number block).grown line = holding number (block ++ [line]) := by
  have size := length_join_concat present line
  rw [holding, holding, size, foldl_feed_concat, List.reverse_append]
  rfl

theorem step_grown (inside : r.mode = .inRecord) (continues : line.startsWith "\x7b\"" = false)
    (fits : (r.size : Int) + line.length + 1 ≤ limits.size) (deep : 0 < (r.scanner.feed line).depth) :
    (step limits r number line).1 = r.grown line := by
  rw [step_continue limits r number line inside continues, if_neg (Int.not_lt.mpr fits), if_pos deep]

theorem step_holding {next : Nat} (present : block ≠ [])
    (continues : line.startsWith "\x7b\"" = false)
    (fits : ((Text.join [0x0A] block).length : Int) + line.length + 1 ≤ limits.size)
    (deep : 0 < ((block.foldl Scanner.feed {}).feed line).depth) :
    (step limits (holding number block) next line).1 = holding number (block ++ [line]) := by
  have grows : (step limits (holding number block) next line).1 = (holding number block).grown line :=
    step_grown rfl continues fits deep
  rw [grows, grown_holding present]

/-- A line that goes on with a record leaves it open if the record is still within the limit and the
line does not close it. -/
theorem mode_continue_iff (inside : r.mode = .inRecord)
    (continues : line.startsWith "\x7b\"" = false) :
    (step limits r number line).1.mode = .inRecord ↔
      (r.size : Int) + line.length + 1 ≤ limits.size ∧ 0 < (r.scanner.feed line).depth := by
  rw [step_continue limits r number line inside continues]
  split
  · next exceeds => simp [Int.not_le.mpr exceeds]
  · next fits =>
    rw [and_iff_right (Int.not_lt.mp fits)]
    split
    · next opens => exact iff_of_true inside opens
    · next closes =>
      refine iff_of_false ?_ closes
      split <;> simp

/-- Lines that start a record and leave it open decide what the reader is behind them. -/
theorem after_holding (starts : (after limits start 1 earlier).Starts first)
    (unclosed : Unclosed limits (first :: rest)) :
    after limits start 1 (earlier ++ first :: rest) = holding (earlier.length + 1) (first :: rest) := by
  -- The record grows at its end, so the induction takes its last line away.
  induction rest using List.reverseRecOn with
  | nil =>
    rw [after_concat, step_starts starts, begin_holding (unclosed_singleton.mp unclosed),
      Nat.add_comm]
  | append_singleton rest line ih =>
    have present : first :: rest ≠ [] := List.cons_ne_nil _ _
    obtain ⟨before, continues, fits, deep⟩ := (unclosed_concat present).mp unclosed
    have cut : earlier ++ first :: (rest ++ [line]) = (earlier ++ first :: rest) ++ [line] := by simp
    rw [cut, after_concat, ih before, step_holding present continues fits deep]
    rfl

/-- A record that is open was started by some line and is left open by all lines from there on. -/
theorem exists_unclosed (outside : start.mode ≠ .inRecord) (lines : List Text)
    (inside : (after limits start 1 lines).mode = .inRecord) :
    ∃ earlier first rest, lines = earlier ++ first :: rest ∧
      (after limits start 1 earlier).Starts first ∧ Unclosed limits (first :: rest) := by
  induction lines using List.reverseRecOn with
  | nil => exact absurd inside outside
  | append_singleton lines line ih =>
    rw [after_concat] at inside
    by_cases starts : (after limits start 1 lines).Starts line
    · rw [step_starts starts] at inside
      have opens : 0 < (Scanner.feed {} line).depth := by
        by_contra closed
        exact mode_begin closed inside
      exact ⟨lines, line, [], rfl, starts, unclosed_singleton.mpr opens⟩
    · by_cases before : (after limits start 1 lines).mode = .inRecord
      · obtain ⟨earlier, first, rest, rfl, begun, unclosed⟩ := ih before
        have continues : line.startsWith "\x7b\"" = false := continues_of_not_starts starts
        rw [mode_continue_iff before continues, after_holding begun unclosed] at inside
        refine ⟨earlier, first, rest ++ [line], by simp, begun, ?_⟩
        exact (unclosed_concat (List.cons_ne_nil _ _)).mpr ⟨unclosed, continues, inside⟩
      · rw [step_chatter limits _ _ line before (plain_of_not_starts starts before)] at inside
        exact absurd inside before

/-- The reader inside a record holds the last of the lines behind it, from the one that begins the
record on, with their size when joined and the braces that they leave open. -/
structure Keeps (r : StreamReader) (lines : List Text) : Prop where
  present : r.buffer ≠ []
  block : ∃ earlier, lines = earlier ++ r.buffer.reverse ∧ r.startLine = earlier.length + 1
  begins : ∀ line ∈ r.buffer.reverse.head?, line.startsWith "\x7b" = true
  continues : ∀ line ∈ r.buffer.reverse.tail, line.startsWith "\x7b\"" = false
  scanner : r.scanner = r.buffer.reverse.foldl Scanner.feed {}
  deep : 1 ≤ r.scanner.depth
  size : r.size = (Text.join [0x0A] r.buffer.reverse).length

theorem keeps_holding (begins : first.startsWith "\x7b" = true)
    (unclosed : Unclosed limits (first :: rest)) (earlier : List Text) :
    (holding (earlier.length + 1) (first :: rest)).Keeps (earlier ++ first :: rest) := by
  have held : (holding (earlier.length + 1) (first :: rest)).buffer.reverse = first :: rest :=
    List.reverse_reverse _
  exact {
    present := by simp [holding]
    block := ⟨earlier, by rw [held], rfl⟩
    begins := by rw [held]; simpa using begins
    continues := by rw [held]; exact unclosed.continues
    scanner := by rw [held]; rfl
    deep := unclosed.deep _ (List.cons_ne_nil _ _) List.prefix_rfl
    size := by rw [held]; rfl }

def reused (limits : StreamLimits) (streams : List Bytes) : StreamReader :=
  streams.foldl (fun r stream => (read limits r stream).1) {}

theorem idle_reused (limits : StreamLimits) (streams : List Bytes) : (reused limits streams).Idle :=
  List.foldlRecOn streams _ ⟨by simp, rfl, rfl⟩ fun _ idle stream _ => idle_read idle limits stream

/-- Behind any lines, the reader holds the lines of the record that is open, with their size and
their braces, or nothing if none is. The record that a line starts is open exactly if that line and
those behind it leave it open. -/
theorem open_record_kept (limits : StreamLimits) (streams : List Bytes) (lines : List Text) :
    let start := reused limits streams
    let r := after limits start 1 lines
    (r.mode = .inRecord → r.Keeps lines) ∧ (r.mode ≠ .inRecord → r.buffer = [] ∧ r.size = 0) ∧
      ∀ earlier first rest, lines = earlier ++ first :: rest →
        (r.mode = .inRecord ∧ r.startLine = earlier.length + 1 ↔
          (after limits start 1 earlier).Starts first ∧ Unclosed limits (first :: rest)) := by
  intro start r
  have new : start.Idle := idle_reused limits streams
  refine ⟨fun inside => ?_, fun outside => ?_, fun earlier first rest cut => ⟨?_, ?_⟩⟩
  · obtain ⟨earlier, first, rest, rfl, starts, unclosed⟩ := exists_unclosed new.outside lines inside
    have held : r = holding (earlier.length + 1) (first :: rest) := after_holding starts unclosed
    rw [held]
    exact keeps_holding starts.brace unclosed earlier
  · have idle := (new.consistent.after lines).idle outside
    exact ⟨idle.buffer, idle.size⟩
  · rintro ⟨inside, number⟩
    obtain ⟨before, head, others, same, starts, unclosed⟩ :=
      exists_unclosed new.outside lines inside
    have held : r = holding (before.length + 1) (head :: others) := by
      rw [← after_holding starts unclosed, ← same]
    have length : before.length = earlier.length := by
      rw [held] at number
      exact Nat.succ.inj number
    obtain ⟨rfl, block⟩ := List.append_inj (same.symm.trans cut) length
    cases block
    exact ⟨starts, unclosed⟩
  · rintro ⟨starts, unclosed⟩
    have held : r = holding (earlier.length + 1) (first :: rest) := by
      rw [← after_holding starts unclosed, ← cut]
    rw [held]
    exact ⟨rfl, rfl⟩

/-- A record of three lines behind other output and behind a stream that broke off. One of its
strings goes over two lines, and the braces in it do not count. -/
theorem open_record_kept_nested :
    let lines : List Text := ["note", "\x7b\"a\": [", " \x7b\"b\": \"\x7b", "\x7d\", 1"]
    let limits : StreamLimits := { size := 64 }
    let r := after limits (reused limits [Utf8.encode "\x7b\"cut\n"]) 1 lines
    r.mode = .inRecord ∧ r.startLine = 2 ∧ r.buffer.reverse = lines.tail ∧ r.scanner.depth = 2 ∧
      r.Keeps lines := by
  intro lines limits r
  have inside : r.mode = .inRecord := by decide
  have kept : r.Keeps lines := (open_record_kept limits [Utf8.encode "\x7b\"cut\n"] lines).1 inside
  exact ⟨inside, by decide, by decide, by decide, kept⟩

end LintCorpus.StreamReader
