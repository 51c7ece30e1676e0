import LintCorpus.Proofs.Report.Table
import Mathlib.Algebra.BigOperators.Group.List.Basic
import Mathlib.Order.Bounds.Basic

/-!
How the columns of a table line up. Separators cut every line into one part for each column, and a
part is two cells wider than the widest text of its column. So each separator has as many cells in
front of it in all lines. All that is used of the cells of code points is that what a table adds to
its texts takes one cell a piece.
-/
namespace LintCorpus

namespace Text

variable {size : Nat → Nat}

theorem widthBy_eq_sum (t : Text) : t.widthBy size = (t.map size).sum := by
  rw [widthBy, List.sum_eq_foldl]

@[simp] theorem widthBy_append (s t : Text) :
    (s ++ t).widthBy size = s.widthBy size + t.widthBy size := by
  simp only [widthBy_eq_sum, List.map_append, List.sum_append]

@[simp] theorem widthBy_copies (n c : Nat) : (copies n c).widthBy size = n * size c := by
  simp [widthBy_eq_sum, copies]

theorem widthBy_join (separator : Text) (parts : List Text) : (join separator parts).widthBy size =
    (parts.map (widthBy size)).sum + (parts.length - 1) * separator.widthBy size := by
  induction parts with
  | nil => simp [widthBy_eq_sum, join]
  | cons first rest ih =>
    by_cases more : rest = []
    · simp [more, join_singleton]
    · obtain ⟨second, others, rfl⟩ := List.exists_cons_of_ne_nil more
      rw [join_cons _ _ _ more, widthBy_append, widthBy_append, ih, List.map_cons, List.sum_cons]
      simp only [List.length_cons, Nat.add_sub_cancel, List.map_cons, List.sum_cons,
        Nat.add_one_mul]
      omega

/-- Joined parts may be cut at the separator behind any part but the last. -/
theorem join_take_drop (separator : Text) (parts : List Text) {place : Nat} (positive : 0 < place)
    (inside : place < parts.length) : join separator parts =
      join separator (parts.take place) ++ separator ++ join separator (parts.drop place) := by
  have first : parts.take place ≠ [] := List.ne_nil_of_length_pos (by simp; omega)
  have second : parts.drop place ≠ [] := List.ne_nil_of_length_pos (by simp; omega)
  rw [← join_append _ _ _ first second, List.take_append_drop]

end Text

namespace Table

open Text

/-- What a table adds to its texts takes one cell a piece. -/
structure Plain (size : Nat → Nat) : Prop where
  space : size ' '.toNat = 1
  dash : size '-'.toNat = 1
  colon : size ':'.toNat = 1
  bar : size '|'.toNat = 1

/-- In a terminal it does. -/
theorem plain_cellWidth : Plain cellWidth :=
  ⟨by decide +kernel, by decide +kernel, by decide +kernel, by decide +kernel⟩

variable {size : Nat → Nat}

section Parts

theorem Plain.widthBy_bar (plain : Plain size) : widthBy size "|" = 1 := by
  have only : ofString "|" = ['|'.toNat] := rfl
  rw [only, widthBy_eq_sum, List.map_singleton, plain.bar, List.sum_singleton]

theorem Plain.widthBy_pad (plain : Plain size) (c : Column) (t : Text)
    (fits : t.widthBy size ≤ c.width) : (pad size c t).widthBy size = c.width + 2 := by
  have one : size 0x20 = 1 := plain.space
  have space : widthBy size [0x20] = 1 := by
    rw [widthBy_eq_sum, List.map_singleton, one, List.sum_singleton]
  unfold pad
  dsimp only
  split <;>
    rw [widthBy_append, widthBy_append, widthBy_append, widthBy_copies, space, one] <;> omega

theorem Plain.widthBy_rulePart (plain : Plain size) (c : Column) :
    (rulePart c).widthBy size = c.width + 2 := by
  have only : ofString ":" = [':'.toNat] := rfl
  have colon : widthBy size ":" = 1 := by
    rw [only, widthBy_eq_sum, List.map_singleton, plain.colon, List.sum_singleton]
  unfold rulePart
  dsimp only
  split <;> rw [widthBy_append, widthBy_copies, colon, plain.dash] <;> omega

theorem isGreatest_column (header : Text) (cells : List Cell) :
    IsGreatest {w | ∃ t ∈ header :: cells.map Cell.content, t.widthBy size = w}
      (column size header cells).width := by
  have greatest : (header.widthBy size :: cells.map fun c => c.content.widthBy size).max? =
      some (column size header cells).width := List.max?_cons'
  have widths : (header.widthBy size :: cells.map fun c => c.content.widthBy size) =
      (header :: cells.map Cell.content).map (widthBy size) := by
    rw [List.map_cons, List.map_map]
    rfl
  rw [widths, List.max?_eq_some_iff] at greatest
  refine ⟨List.mem_map.mp greatest.1, ?_⟩
  rintro _ ⟨t, member, rfl⟩
  exact greatest.2 _ (List.mem_map_of_mem member)

end Parts

/-- What stands in the column at a place: its header and the cells below it. -/
def textsAt (headers : List Text) (rows : List (List Cell)) (place : Nat) : List Text :=
  headers[place]?.toList ++ rows.filterMap fun row => row[place]?.map Cell.content

/-- A part of a line that shows a text, with spaces on both sides. -/
def Shows (part t : Text) : Prop :=
  ∃ before after, part = copies (before + 1) 0x20 ++ t ++ copies (after + 1) 0x20

/-- A part of the rule: dashes, and a colon at one end of them. -/
def IsRule (part : Text) : Prop :=
  ∃ dashes, part = ":" ++ copies dashes '-'.toNat ∨ part = copies dashes '-'.toNat ++ ":"

/-- The parts of the lines of a table, and the widths of its columns: each column is as wide as the
widest text in it, and all its parts are two cells wider. -/
structure Layout (size : Nat → Nat) (headers : List Text) (rows : List (List Cell))
    (widths : List Nat) (top bar : List Text) (below : List (List Text)) : Prop where
  columns : widths.length = headers.length
  widest : ∀ place (inside : place < widths.length),
    IsGreatest {w | ∃ t ∈ textsAt headers rows place, t.widthBy size = w} widths[place]
  headed : List.Forall₂ Shows top headers
  ruled : ∀ part ∈ bar, IsRule part
  filled : List.Forall₂ (List.Forall₂ Shows) below (rows.map (·.map Cell.content))
  sized : ∀ parts ∈ top :: bar :: below, parts.map (widthBy size) = widths.map (· + 2)

section Columns

variable {headers : List Text} {rows : List (List Cell)}

theorem getElem_columns {place : Nat} (inside : place < headers.length)
    (here : place < (columns size headers rows).length) :
    (columns size headers rows)[place] =
      column size headers[place] (rows.filterMap (·[place]?)) := by
  simp only [columns_eq, List.getElem_map, List.getElem_zipIdx, Nat.zero_add]

theorem isGreatest_columns {place : Nat} (here : place < (columns size headers rows).length) :
    IsGreatest {w | ∃ t ∈ textsAt headers rows place, t.widthBy size = w}
      (columns size headers rows)[place].width := by
  have inside : place < headers.length := by rwa [length_columns] at here
  have texts : textsAt headers rows place =
      headers[place] :: (rows.filterMap (·[place]?)).map Cell.content := by
    rw [textsAt, List.getElem?_eq_getElem inside, List.map_filterMap]
    rfl
  rw [texts, getElem_columns inside here]
  exact isGreatest_column _ _

theorem width_le_columns {place : Nat} (here : place < (columns size headers rows).length) {t : Text}
    (member : t ∈ textsAt headers rows place) :
    t.widthBy size ≤ (columns size headers rows)[place].width :=
  (isGreatest_columns here).2 ⟨t, member, rfl⟩

theorem fits_headers : List.Forall₂ (fun (c : Column) (t : Text) => t.widthBy size ≤ c.width)
    (columns size headers rows) headers := by
  refine List.forall₂_iff_get.mpr ⟨length_columns _ _, fun place here inside => ?_⟩
  refine width_le_columns here ?_
  simp [textsAt, inside]

theorem fits_row {row : List Cell} (member : row ∈ rows) (fit : row.length = headers.length) :
    List.Forall₂ (fun (c : Column) (t : Text) => t.widthBy size ≤ c.width)
      (columns size headers rows) (row.map Cell.content) := by
  refine List.forall₂_iff_get.mpr
    ⟨by rw [length_columns, List.length_map, fit], fun place here inside => ?_⟩
  refine width_le_columns here (List.mem_append_right _ (List.mem_filterMap.mpr ⟨row, member, ?_⟩))
  rw [List.length_map] at inside
  simp [List.getElem?_eq_getElem inside]

theorem shows_pad (c : Column) (t : Text) : Shows (pad size c t) t := by
  have last (n : Nat) : copies (n + 1) 0x20 = copies n 0x20 ++ [0x20] := List.replicate_succ'
  unfold pad
  dsimp only
  split
  · refine ⟨0, c.width - t.widthBy size, ?_⟩
    rw [last (c.width - t.widthBy size), List.append_assoc _ _ [0x20]]
    rfl
  · refine ⟨c.width - t.widthBy size, 0, ?_⟩
    rfl

theorem isRule_rulePart (c : Column) : IsRule (rulePart c) := by
  refine ⟨c.width + 1, ?_⟩
  unfold rulePart
  dsimp only
  split
  · exact .inl rfl
  · exact .inr rfl

variable {cs : List Column} {texts : List Text}
  (fits : List.Forall₂ (fun (c : Column) (t : Text) => t.widthBy size ≤ c.width) cs texts)

include fits

theorem Plain.widthBy_zipWith_pad (plain : Plain size) :
    (cs.zipWith (pad size) texts).map (widthBy size) = (cs.map Column.width).map (· + 2) := by
  induction fits with
  | nil => rfl
  | cons here _ ih =>
    rw [List.zipWith_cons_cons, List.map_cons, ih, plain.widthBy_pad _ _ here]
    rfl

theorem shows_zipWith_pad : List.Forall₂ Shows (cs.zipWith (pad size) texts) texts := by
  induction fits with
  | nil => exact .nil
  | cons _ _ ih => exact .cons (shows_pad _ _) ih

end Columns

theorem layout (plain : Plain size) (t : Table) :
    let cs := columns size t.headers t.rows
    Layout size t.headers t.rows (cs.map Column.width) (cs.zipWith (pad size) t.headers)
      (cs.map rulePart) (t.rows.map fun row => cs.zipWith (pad size) (row.map Cell.content)) where
  columns := by rw [List.length_map, length_columns]
  widest place inside := by
    rw [List.getElem_map]
    exact isGreatest_columns _
  headed := shows_zipWith_pad fits_headers
  ruled := List.forall_mem_map.mpr fun c _ => isRule_rulePart c
  filled := by
    rw [List.forall₂_map_left_iff, List.forall₂_map_right_iff, List.forall₂_same]
    exact fun row member => shows_zipWith_pad (fits_row member (t.fit row member))
  sized := by
    refine List.forall_mem_cons.mpr
      ⟨plain.widthBy_zipWith_pad fits_headers, List.forall_mem_cons.mpr ⟨?_, ?_⟩⟩
    · rw [List.map_map, List.map_map]
      exact List.map_congr_left fun c _ => plain.widthBy_rulePart c
    · exact List.forall_mem_map.mpr fun row member =>
        plain.widthBy_zipWith_pad (fits_row member (t.fit row member))

theorem linesBy_eq (t : Table) : t.linesBy size =
    let cs := columns size t.headers t.rows
    (cs.zipWith (pad size) t.headers :: cs.map rulePart ::
      t.rows.map fun row => cs.zipWith (pad size) (row.map Cell.content)).map (join "|") := by
  simp only [linesBy, line, List.map_cons, List.map_map]
  rfl

section Lines

variable {headers : List Text} {rows : List (List Cell)} {widths : List Nat} {top bar : List Text}
  {below : List (List Text)} (laid : Layout size headers rows widths top bar below)
  {parts : List Text} (member : parts ∈ top :: bar :: below)

include laid member

theorem Layout.length_parts : parts.length = headers.length := by
  rw [← laid.columns]
  simpa using congrArg List.length (laid.sized parts member)

/-- A line is as wide as its columns, with two more cells for each and one for each separator. -/
theorem Layout.width_line (plain : Plain size) :
    (join "|" parts).widthBy size = (widths.map (· + 2)).sum + (headers.length - 1) := by
  rw [widthBy_join, laid.sized parts member, laid.length_parts member, plain.widthBy_bar,
    Nat.mul_one]

/-- A separator stands behind the columns before it and the separators between them. -/
theorem Layout.width_front (plain : Plain size) {place : Nat} (inside : place < headers.length) :
    (join "|" (parts.take (place + 1))).widthBy size =
      ((widths.take (place + 1)).map (· + 2)).sum + place := by
  have front : (parts.take (place + 1)).map (widthBy size) =
      (widths.take (place + 1)).map (· + 2) := by
    rw [List.map_take, laid.sized parts member, List.map_take]
  have count : (parts.take (place + 1)).length = place + 1 := by
    rw [List.length_take_of_le]
    rwa [laid.length_parts member]
  rw [widthBy_join, front, count, plain.widthBy_bar, Nat.mul_one, Nat.add_sub_cancel]

theorem Layout.separated {place : Nat} (inside : place + 1 < headers.length) : join "|" parts =
    join "|" (parts.take (place + 1)) ++ "|" ++ join "|" (parts.drop (place + 1)) := by
  refine join_take_drop _ _ place.succ_pos ?_
  rwa [laid.length_parts member]

end Lines

/-- Headers and rows make a table exactly if every row has a cell for each header. Its lines are
then one for the headers, one for the rule and one for each row. All are as wide as the columns with
two more cells for each and a separator between any two of them, and every separator stands behind
equally many cells in all of them. -/
structure LinesUp (size : Nat → Nat) (headers : List Text) (rows : List (List Cell))
    (drawn : Except TableFault (List Text)) : Prop where
  short : drawn = .error .shortRow ↔ ∃ row ∈ rows, row.length < headers.length
  long : drawn = .error .longRow ↔
    (∀ row ∈ rows, headers.length ≤ row.length) ∧ ∃ row ∈ rows, headers.length < row.length
  fits : (∃ lines, drawn = .ok lines) ↔ ∀ row ∈ rows, row.length = headers.length
  laid : ∀ lines, drawn = .ok lines → lines.length = 2 + rows.length ∧
    ∃ widths top bar below, Layout size headers rows widths top bar below ∧
      lines = (top :: bar :: below).map (join "|") ∧
      (∀ line ∈ lines, line.widthBy size = (widths.map (· + 2)).sum + (headers.length - 1)) ∧
      ∀ place, place + 1 < headers.length → ∀ parts ∈ top :: bar :: below,
        join "|" parts =
            join "|" (parts.take (place + 1)) ++ "|" ++ join "|" (parts.drop (place + 1)) ∧
          (join "|" (parts.take (place + 1))).widthBy size =
            ((widths.take (place + 1)).map (· + 2)).sum + place

theorem linesUp (plain : Plain size) (headers : List Text) (rows : List (List Cell)) :
    LinesUp size headers rows (renderBy size headers rows) where
  short := render_eq_shortRow_iff
  long := render_eq_longRow_iff
  fits := by
    simp only [render_eq_ok_iff, exists_comm (α := List Text), exists_eq, exists_prop, and_true]
  laid drawn made := by
    obtain ⟨fit, rfl⟩ := render_eq_ok_iff.mp made
    have laid := layout plain ⟨headers, rows, fit⟩
    have parted : linesBy size ⟨headers, rows, fit⟩ = _ := linesBy_eq ⟨headers, rows, fit⟩
    refine ⟨?_, _, _, _, _, laid, parted, ?_, fun place inside parts member => ?_⟩
    · rw [parted, List.length_map, List.length_cons, List.length_cons, List.length_map]
      exact Nat.add_comm _ 2
    · rw [parted, List.forall_mem_map]
      exact fun parts member => laid.width_line member plain
    · exact ⟨laid.separated member inside, laid.width_front member plain (Nat.lt_of_succ_lt inside)⟩

/-- The columns of a table line up in a terminal, and wherever else the cells of a text are those of
its code points and what a table adds takes one cell a piece. -/
theorem columns_line_up (headers : List Text) (rows : List (List Cell)) :
    LinesUp cellWidth headers rows (render headers rows) ∧
      ∀ size, Plain size → LinesUp size headers rows (renderBy size headers rows) :=
  ⟨linesUp plain_cellWidth headers rows, fun _ plain => linesUp plain headers rows⟩

/-- A wide text, an empty one, and a cell that holds what separates cells. -/
theorem columns_line_up_wide :
    let rows : List (List Cell) := [[.text "\u65e5\u672c", .int 1], [.text "", .text "a|b"]]
    ∃ lines, render ["Crate", "Count"] rows = .ok lines ∧ lines.length = 4 ∧
      ∀ line ∈ lines, ∀ other ∈ lines, line.width = other.width := by
  intro rows
  have up := (columns_line_up ["Crate", "Count"] rows).1
  obtain ⟨lines, made⟩ := up.fits.mpr (by decide)
  obtain ⟨count, _, _, _, _, -, -, wide, -⟩ := up.laid lines made
  refine ⟨lines, made, count, fun line member other among => ?_⟩
  exact (wide line member).trans (wide other among).symm

end Table
end LintCorpus
