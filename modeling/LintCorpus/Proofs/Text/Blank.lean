import LintCorpus.Text.Blank
import Mathlib.Data.List.Basic

/-!
White space around a text and between its words. Trimming leaves the part between the outermost code
points that are not blank, and the first word ends where the first blank after it stands.
-/
namespace LintCorpus.Text

def Blank (t : Text) : Prop := ∀ c ∈ t, isBlank c = true

/-- No white space at either end. -/
structure Trimmed (t : Text) : Prop where
  start : ∀ c, t.head? = some c → isBlank c = false
  stop : ∀ c, t.getLast? = some c → isBlank c = false

theorem trimmed_of_free {t : Text} (free : ∀ c ∈ t, isBlank c = false) : Trimmed t where
  start := fun c first => free c (List.mem_of_mem_head? first)
  stop := fun c last => free c (List.mem_of_getLast? last)

theorem Trimmed.append {front back : Text} (free : ∀ c ∈ front, isBlank c = false)
    (trimmed : Trimmed back) : Trimmed (front ++ back) where
  start := fun c first => by
    rw [List.head?_append, Option.or_eq_some_iff] at first
    rcases first with here | ⟨-, there⟩
    · exact free c (List.mem_of_mem_head? here)
    · exact trimmed.start c there
  stop := fun c final => by
    rw [List.getLast?_append, Option.or_eq_some_iff] at final
    rcases final with there | ⟨-, here⟩
    · exact trimmed.stop c there
    · exact free c (List.mem_of_getLast? here)

theorem dropWhile_of_start {t : Text} (start : ∀ c, t.head? = some c → isBlank c = false) :
    t.dropWhile isBlank = t := by
  cases t with
  | nil => rfl
  | cons c rest => exact List.dropWhile_cons_of_neg (by simp [start c rfl])

theorem dropWhile_blank_append {before : Text} (blank : Blank before) (t : Text) :
    (before ++ t).dropWhile isBlank = t.dropWhile isBlank :=
  List.dropWhile_append_of_pos blank

private theorem stripEnd_append {t after : Text}
    (stop : ∀ c, t.getLast? = some c → isBlank c = false) (blank : Blank after) :
    stripEnd (t ++ after) = t := by
  have reversed : Blank after.reverse := fun c member => blank c (List.mem_reverse.mp member)
  have kept : t.reverse.dropWhile isBlank = t.reverse :=
    dropWhile_of_start (by simpa using stop)
  rw [stripEnd, List.reverse_append, dropWhile_blank_append reversed, kept, List.reverse_reverse]

/-- White space around a trimmed text is what trimming takes away. -/
theorem strip_padded {before inner after : Text} (front : Blank before) (trimmed : Trimmed inner)
    (back : Blank after) : strip (before ++ inner ++ after) = inner := by
  rw [strip, List.append_assoc, dropWhile_blank_append front]
  cases inner with
  | nil =>
    have nothing : after.dropWhile isBlank = [] := by
      simpa using dropWhile_blank_append back []
    rw [List.nil_append, nothing]
    rfl
  | cons c rest =>
    have kept : (c :: rest ++ after).dropWhile isBlank = c :: rest ++ after :=
      dropWhile_of_start trimmed.start
    rw [kept, stripEnd_append trimmed.stop back]

theorem blank_takeWhile (t : Text) : Blank (t.takeWhile isBlank) :=
  List.all_eq_true.mp List.all_takeWhile

theorem exists_padded (t : Text) : ∃ before after, Blank before ∧ Blank after ∧ Trimmed (strip t) ∧
    t = before ++ strip t ++ after := by
  have front := blank_takeWhile t
  have cut : t.takeWhile isBlank ++ t.dropWhile isBlank = t := List.takeWhile_append_dropWhile
  generalize rest : t.dropWhile isBlank = inner at cut
  have back : Blank (inner.reverse.takeWhile isBlank).reverse :=
    fun c member => blank_takeWhile _ c (List.mem_reverse.mp member)
  have split : stripEnd inner ++ (inner.reverse.takeWhile isBlank).reverse = inner := by
    rw [stripEnd, ← List.reverse_append, List.takeWhile_append_dropWhile, List.reverse_reverse]
  have stripped : strip t = stripEnd inner := by rw [strip, rest]
  refine ⟨_, _, front, back, ⟨fun c head => ?_, fun c final => ?_⟩, ?_⟩
  · -- The first code point left over is the first of what stands behind the white space in front.
    have first : (t.dropWhile isBlank).head? = some c := by
      rw [rest, ← split, List.head?_append, ← stripped, head]
      rfl
    have stopped := List.head?_dropWhile_not isBlank t
    rw [first] at stopped
    simpa using stopped
  · have last : (inner.reverse.dropWhile isBlank).head? = some c := by
      rw [stripped, stripEnd, List.getLast?_reverse] at final
      exact final
    have stopped := List.head?_dropWhile_not isBlank inner.reverse
    rw [last] at stopped
    simpa using stopped
  · rw [stripped, List.append_assoc, split, cut]

/-- A word with nothing but white space in front of it. -/
def FirstWord (t word : Text) : Prop :=
  ∃ before after, Blank before ∧ word ≠ [] ∧ (∀ c ∈ word, isBlank c = false) ∧
    (∀ c, after.head? = some c → isBlank c = true) ∧ t = before ++ word ++ after

end LintCorpus.Text
