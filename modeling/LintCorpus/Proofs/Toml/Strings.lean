import LintCorpus.Toml.Text
import Mathlib.Data.List.Basic

/-!
The strings of a document. Whatever is read from a text of characters is characters again, and so
is what is left of the text: an escape denotes no surrogate and no number that is too large.
-/
namespace LintCorpus

def Text.Valid (t : Text) : Prop := ∀ c ∈ t, c.isValidChar

namespace Text.Valid

variable {t u : Text}

theorem subset (valid : u.Valid) (inside : t ⊆ u) : t.Valid := fun c member =>
  valid c (inside member)

theorem cons {c : Nat} (first : c.isValidChar) (valid : t.Valid) : Text.Valid (c :: t) :=
  List.forall_mem_cons.mpr ⟨first, valid⟩

theorem append (front : t.Valid) (back : u.Valid) : Text.Valid (t ++ u) :=
  List.forall_mem_append.mpr ⟨front, back⟩

theorem head {c : Nat} (valid : Text.Valid (c :: t)) : c.isValidChar := valid c List.mem_cons_self

theorem tail {c : Nat} (valid : Text.Valid (c :: t)) : t.Valid :=
  valid.subset (List.subset_cons_self c t)

theorem drop (valid : t.Valid) (n : Nat) : Text.Valid (t.drop n) :=
  valid.subset (List.drop_subset n t)

theorem dropWhile (valid : t.Valid) (p : Nat → Bool) : Text.Valid (t.dropWhile p) :=
  valid.subset (List.dropWhile_sublist p).subset

theorem takeWhile (valid : t.Valid) (p : Nat → Bool) : Text.Valid (t.takeWhile p) :=
  valid.subset (List.takeWhile_sublist p).subset

theorem reverse (valid : t.Valid) : Text.Valid t.reverse :=
  valid.subset fun _ member => List.mem_reverse.mp member

end Text.Valid

namespace Toml

/-- A reader that gives only what `P` holds of. -/
def Gives {α : Type} (P : α → Prop) (result : Except Fault α) : Prop := ∀ a, result = .ok a → P a

namespace Gives

variable {α β : Type} {P : α → Prop} {Q : β → Prop}

theorem error (fault : Fault) : Gives P (.error fault) := nofun

theorem ok {a : α} (held : P a) : Gives P (.ok a) := by
  intro b same
  cases same
  exact held

theorem bind {result : Except Fault α} {then_ : α → Except Fault β} (gives : Gives P result)
    (following : ∀ a, P a → Gives Q (then_ a)) : Gives Q (result >>= then_) := by
  rcases result with fault | a
  · exact error fault
  · exact following a (gives a rfl)

end Gives

/-- A reader that gives only what `P` holds of, and leaves a text of characters. -/
def Reads {α : Type} (P : α → Prop) (result : Except Fault (α × Text)) : Prop :=
  Gives (fun found => P found.1 ∧ found.2.Valid) result

namespace Reads

variable {α β : Type} {P : α → Prop} {Q : β → Prop}

theorem error (fault : Fault) : Reads P (.error fault) := Gives.error fault

theorem ok {a : α} {next : Text} (held : P a) (valid : next.Valid) : Reads P (.ok (a, next)) :=
  Gives.ok ⟨held, valid⟩

theorem bind {result : Except Fault (α × Text)} {then_ : α × Text → Except Fault β}
    (reads : Reads P result)
    (following : ∀ a next, P a → next.Valid → Gives Q (then_ (a, next))) :
    Gives Q (result >>= then_) :=
  Gives.bind reads fun found held => following found.1 found.2 held.1 held.2

theorem forget {result : Except Fault (α × Text)} (reads : Reads P result) :
    Reads (fun _ => True) result :=
  fun found read => ⟨trivial, (reads found read).2⟩

end Reads

variable {rest : Text} (valid : rest.Valid)

include valid

theorem skipGap_valid : (skipGap rest).Valid := valid.dropWhile _

theorem skipComment_gives : Gives Text.Valid (skipComment rest) := by
  rcases rest with _ | ⟨c, after⟩
  · exact .ok valid
  · rw [skipComment]
    split
    · dsimp only
      rcases refuse isControl (after.takeWhile (· != 0x0A)) _ with fault | _
      · exact .error fault
      · exact .ok (valid.tail.drop _)
    · exact .ok valid

theorem splitBefore_valid (closing before found : Text)
    (split : splitBefore closing rest = some (before, found)) : before.Valid ∧ found.Valid := by
  induction rest generalizing before found with
  | nil =>
    rw [splitBefore] at split
    split_ifs at split
    cases split
    exact ⟨valid, valid⟩
  | cons c after ih =>
    rw [splitBefore] at split
    split_ifs at split
    · cases split
      exact ⟨nofun, valid⟩
    · rw [Option.map_eq_some_iff] at split
      obtain ⟨⟨front, back⟩, later, same⟩ := split
      cases same
      obtain ⟨front, back⟩ := ih valid.tail _ _ later
      exact ⟨front.cons valid.head, back⟩

theorem literalUntil_reads (closing : Text) (forbidden : Nat → Bool) :
    Reads Text.Valid (literalUntil closing forbidden rest) := by
  rw [literalUntil]
  split
  · exact .error _
  next content found split =>
    obtain ⟨before, after⟩ := splitBefore_valid valid closing _ _ split
    rcases refuse forbidden content found with fault | _
    · exact .error fault
    · exact .ok before (after.drop _)

theorem hexEscape_reads (count : Nat) : Reads Text.Valid (hexEscape count rest) := by
  rw [hexEscape]
  split
  next digits _ =>
    split
    · exact .error _
    · dsimp only
      split
      · exact .error _
      next accepted =>
        refine .ok (List.forall_mem_singleton.mpr ?_) (valid.drop count)
        simp only [Text.isSurrogate, Bool.or_eq_true, Bool.and_eq_true, decide_eq_true_eq]
          at accepted
        show _ ∨ _
        omega
  · exact .error _

omit valid in
private theorem escaped?_valid (c d : Nat) (denoted : escaped? c = some d) : d.isValidChar := by
  have single : d < 0x80 := by
    unfold escaped? at denoted
    split_ifs at denoted with a b e f g quoted <;> cases denoted
    all_goals first
      | decide
      | skip
    simp only [Bool.or_eq_true, decide_eq_true_eq] at quoted
    rcases quoted with rfl | rfl <;> decide
  exact .inl (by omega)

theorem skipBrokenLine_gives (c : Nat) : Gives Text.Valid (skipBrokenLine c rest) := by
  rw [skipBrokenLine]
  split
  · exact .ok (valid.dropWhile _)
  · have left := skipGap_valid valid
    generalize skipGap rest = later at left ⊢
    rcases later with _ | ⟨d, after⟩
    · exact .ok nofun
    · dsimp only
      split
      · exact .ok (left.tail.dropWhile _)
      · exact .error _

theorem escape_reads (multiline : Bool) : Reads Text.Valid (escape multiline rest) := by
  rcases rest with _ | ⟨c, after⟩
  · exact .error _
  · rw [escape]
    split_ifs
    · exact (skipBrokenLine_gives valid.tail c).bind fun next left => .ok ⟨nofun, left⟩
    · exact hexEscape_reads valid.tail 4
    · exact hexEscape_reads valid.tail 8
    · split
      next d denoted =>
        exact .ok (List.forall_mem_singleton.mpr (escaped?_valid c d denoted)) valid.tail
      · exact .error _

theorem basic_reads (multiline : Bool) (fuel : Nat) (content : Text) (before : content.Valid) :
    Reads Text.Valid (basic multiline fuel content rest) := by
  induction fuel generalizing content rest with
  | zero => exact .error _
  | succ fuel ih =>
    rcases rest with _ | ⟨c, after⟩
    · exact .error _
    · have further := ih valid.tail (c :: content) (before.cons valid.head)
      rw [basic]
      split_ifs
      · exact .ok before.reverse valid.tail
      · exact .ok before.reverse (valid.drop 3)
      · exact further
      · refine (escape_reads valid.tail multiline).bind fun denoted next held left => ?_
        exact ih left _ (held.reverse.append before)
      · exact .error _
      · exact further

theorem basicLine_reads (fuel : Nat) : Reads Text.Valid (basicLine fuel rest) :=
  basic_reads valid false fuel [] nofun

theorem literalLine_reads : Reads Text.Valid (literalLine rest) := literalUntil_reads valid _ _

theorem dropFirstNewline_valid : (dropFirstNewline rest).Valid := by
  rcases rest with _ | ⟨c, after⟩
  · exact valid
  · rw [dropFirstNewline]
    split
    · exact valid.tail
    · exact valid

omit valid in
private theorem extraMarks_reads (mark : Nat) (result : Except Fault (Text × Text))
    (reads : Reads Text.Valid result) :
    Reads Text.Valid (result >>= fun found => .ok (extraMarks mark found.1 found.2)) := by
  refine reads.bind fun content after held left => ?_
  exact .ok ⟨held.append ((left.takeWhile _).subset (List.take_subset _ _)), left.drop _⟩

theorem basicBlock_reads (fuel : Nat) : Reads Text.Valid (basicBlock fuel rest) :=
  extraMarks_reads _ _ (basic_reads (dropFirstNewline_valid valid) true fuel [] nofun)

theorem literalBlock_reads : Reads Text.Valid (literalBlock rest) :=
  extraMarks_reads _ _ (literalUntil_reads (dropFirstNewline_valid valid) _ _)

end Toml
end LintCorpus
