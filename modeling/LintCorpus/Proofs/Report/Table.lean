import LintCorpus.Proofs.Failure
import LintCorpus.Proofs.Text.Encodable
import LintCorpus.Report.Table

/-!
What a table shows. Headers over rows that fit them can always be drawn, and nothing in them is left
out, so a table has bytes exactly if all that it shows has.
-/
namespace LintCorpus.Table

open Text

variable {size : Nat → Nat}

private theorem columns_drop (headers : List Text) (rows : List (List Cell)) (place : Nat) :
    columns size headers (rows.map (·.drop place)) =
      (headers.zipIdx place).map fun entry => column size entry.1 (rows.filterMap (·[entry.2]?)) := by
  induction headers generalizing place with
  | nil => rfl
  | cons header rest ih =>
    have here : (rows.map (·.drop place)).filterMap List.head? = rows.filterMap (·[place]?) := by
      rw [List.filterMap_map]
      exact congrArg (rows.filterMap ·) (funext fun row => List.head?_drop)
    have later : (rows.map (·.drop place)).map List.tail = rows.map (·.drop (place + 1)) := by
      rw [List.map_map]
      exact List.map_congr_left fun row _ => List.tail_drop
    rw [columns, here, later, ih, List.zipIdx_cons, List.map_cons]

theorem columns_eq (headers : List Text) (rows : List (List Cell)) :
    columns size headers rows =
      headers.zipIdx.map fun entry => column size entry.1 (rows.filterMap (·[entry.2]?)) := by
  simpa using columns_drop headers rows 0

theorem length_columns (headers : List Text) (rows : List (List Cell)) :
    (columns size headers rows).length = headers.length := by
  induction headers generalizing rows with
  | nil => rfl
  | cons header rest ih => rw [columns, List.length_cons, ih, List.length_cons]

section Render

variable {headers : List Text} {rows : List (List Cell)}

theorem cellsAt_eq_ok {place : Nat} (reach : ∀ row ∈ rows, place < row.length) :
    cellsAt rows place = .ok (rows.filterMap (·[place]?)) := by
  induction rows with
  | nil => rfl
  | cons row rest ih =>
    obtain ⟨here, others⟩ := List.forall_mem_cons.mp reach
    have cell := List.getElem?_eq_getElem here
    have kept : (row :: rest).filterMap (·[place]?) = row[place] :: rest.filterMap (·[place]?) :=
      List.filterMap_cons_some cell
    have later := ih others
    rw [cellsAt] at later ⊢
    rw [List.mapM_cons, later, cell, kept]
    rfl

theorem cellsAt_eq_error {place : Nat} (short : ∃ row ∈ rows, row.length ≤ place) :
    cellsAt rows place = .error .shortRow := by
  obtain ⟨row, member, ends⟩ := short
  refine mapM_eq_error (fun other _ => ?_) ⟨row, member, ?_⟩
  · split <;> simp
  · rw [List.getElem?_eq_none ends]

theorem readColumns_eq_ok (reach : ∀ row ∈ rows, headers.length ≤ row.length) :
    readColumns size headers rows = .ok (columns size headers rows) := by
  rw [columns_eq]
  refine mapM_eq_ok ?_
  rintro ⟨header, place⟩ member
  have inside : place < headers.length := List.snd_lt_of_mem_zipIdx member
  dsimp only
  rw [cellsAt_eq_ok fun row present => inside.trans_le (reach row present)]
  rfl

theorem readColumns_eq_error (short : ∃ row ∈ rows, row.length < headers.length) :
    readColumns size headers rows = .error .shortRow := by
  obtain ⟨row, member, ends⟩ := short
  have stopped : cellsAt rows row.length = .error .shortRow :=
    cellsAt_eq_error ⟨row, member, le_rfl⟩
  refine mapM_eq_error ?_ ⟨(headers[row.length], row.length), ?_, ?_⟩
  · rintro ⟨header, place⟩ -
    by_cases reach : ∀ other ∈ rows, place < other.length
    · dsimp only
      rw [cellsAt_eq_ok reach]
      exact failsOnly_ok _
    · push Not at reach
      dsimp only
      rw [cellsAt_eq_error reach]
      exact (failsOnly_error _).mpr rfl
  · rw [List.mem_zipIdx_iff_getElem?]
    exact List.getElem?_eq_getElem ends
  · dsimp only
    rw [stopped]
    rfl

theorem fitLine_eq_ok {cs : List Column} {texts : List Text} (fit : texts.length ≤ cs.length) :
    fitLine size cs texts = .ok (line size cs texts) :=
  if_neg (Nat.not_lt.mpr fit)

theorem fitLine_eq_error {cs : List Column} {texts : List Text} (long : cs.length < texts.length) :
    fitLine size cs texts = .error .longRow :=
  if_pos long

/-- Once the columns are read, a table comes out as its rows do. -/
theorem render_of_reach (reach : ∀ row ∈ rows, headers.length ≤ row.length) :
    renderBy size headers rows =
      (rows.mapM fun row => fitLine size (columns size headers rows) (row.map Cell.content)).map
        fun below => line size (columns size headers rows) headers ::
          join "|" ((columns size headers rows).map rulePart) :: below := by
  have top : fitLine size (columns size headers rows) headers =
      .ok (line size (columns size headers rows) headers) :=
    fitLine_eq_ok (length_columns headers rows).ge
  rw [renderBy, readColumns_eq_ok reach]
  simp only [bind, Except.bind, top]
  rfl

theorem render_eq_ok (fit : ∀ row ∈ rows, row.length = headers.length) :
    renderBy size headers rows = .ok (linesBy size ⟨headers, rows, fit⟩) := by
  have below : (rows.mapM fun row => fitLine size (columns size headers rows) (row.map Cell.content)) =
      .ok (rows.map fun row => line size (columns size headers rows) (row.map Cell.content)) := by
    refine mapM_eq_ok fun row member => fitLine_eq_ok ?_
    rw [List.length_map, fit row member, length_columns]
  rw [render_of_reach fun row member => (fit row member).ge, below]
  rfl

theorem render_eq_shortRow (short : ∃ row ∈ rows, row.length < headers.length) :
    renderBy size headers rows = .error .shortRow := by
  rw [renderBy, readColumns_eq_error short]
  rfl

theorem render_eq_longRow (reach : ∀ row ∈ rows, headers.length ≤ row.length)
    (long : ∃ row ∈ rows, headers.length < row.length) :
    renderBy size headers rows = .error .longRow := by
  obtain ⟨row, member, more⟩ := long
  have below : (rows.mapM fun row => fitLine size (columns size headers rows) (row.map Cell.content)) =
      .error .longRow := by
    refine mapM_eq_error (fun other _ => ?_) ⟨row, member, fitLine_eq_error ?_⟩
    · rw [fitLine]
      split <;> simp
    · rwa [List.length_map, length_columns]
  rw [render_of_reach reach, below]
  rfl

/-- Rows do not make a table if one is short, or else if one is long. -/
theorem render_cases (headers : List Text) (rows : List (List Cell)) :
    (∃ row ∈ rows, row.length < headers.length) ∧ renderBy size headers rows = .error .shortRow ∨
      ((∀ row ∈ rows, headers.length ≤ row.length) ∧ ∃ row ∈ rows, headers.length < row.length) ∧
        renderBy size headers rows = .error .longRow ∨
      ∃ fit, renderBy size headers rows = .ok (linesBy size ⟨headers, rows, fit⟩) := by
  by_cases short : ∃ row ∈ rows, row.length < headers.length
  · exact .inl ⟨short, render_eq_shortRow short⟩
  · push Not at short
    by_cases long : ∃ row ∈ rows, headers.length < row.length
    · exact .inr (.inl ⟨⟨short, long⟩, render_eq_longRow short long⟩)
    · push Not at long
      have fit : ∀ row ∈ rows, row.length = headers.length := fun row member =>
        Nat.le_antisymm (long row member) (short row member)
      exact .inr (.inr ⟨fit, render_eq_ok fit⟩)

theorem render_eq_shortRow_iff :
    renderBy size headers rows = .error .shortRow ↔ ∃ row ∈ rows, row.length < headers.length := by
  refine ⟨fun made => ?_, render_eq_shortRow⟩
  rcases render_cases headers rows with ⟨short, -⟩ | ⟨-, other⟩ | ⟨fit, other⟩
  · exact short
  · cases other.symm.trans made
  · cases other.symm.trans made

theorem render_eq_longRow_iff : renderBy size headers rows = .error .longRow ↔
    (∀ row ∈ rows, headers.length ≤ row.length) ∧ ∃ row ∈ rows, headers.length < row.length := by
  refine ⟨fun made => ?_, fun long => render_eq_longRow long.1 long.2⟩
  rcases render_cases headers rows with ⟨-, other⟩ | ⟨long, -⟩ | ⟨fit, other⟩
  · cases other.symm.trans made
  · exact long
  · cases other.symm.trans made

theorem render_eq_ok_iff {drawn : List Text} :
    renderBy size headers rows = .ok drawn ↔ ∃ fit, drawn = linesBy size ⟨headers, rows, fit⟩ := by
  constructor
  · intro made
    rcases render_cases headers rows with ⟨-, other⟩ | ⟨-, other⟩ | ⟨fit, given⟩
    · cases other.symm.trans made
    · cases other.symm.trans made
    · exact ⟨fit, Except.ok.inj (made.symm.trans given)⟩
  · rintro ⟨fit, rfl⟩
    exact render_eq_ok fit

end Render

theorem encodable_pad (c : Column) (t : Text) : (pad size c t).Encodable ↔ t.Encodable := by
  have gap : Encodable (copies (c.width - t.widthBy size) 0x20) := encodable_copies _ _ rfl
  have space : isSurrogate 0x20 = false := rfl
  unfold pad
  split <;> simp [gap, space]

theorem encodable_rulePart (c : Column) : (rulePart c).Encodable := by
  have dashes : Encodable (copies (c.width + 1) '-'.toNat) := encodable_copies _ _ rfl
  unfold rulePart
  split
  · exact (encodable_append _ _).mpr ⟨encodable_ofString _, dashes⟩
  · exact (encodable_append _ _).mpr ⟨dashes, encodable_ofString _⟩

theorem encodable_line (cs : List Column) (texts : List Text) (fit : texts.length = cs.length) :
    (line size cs texts).Encodable ↔ ∀ t ∈ texts, t.Encodable := by
  rw [line, encodable_join _ (encodable_ofString _)]
  induction cs generalizing texts with
  | nil =>
    rw [List.length_eq_zero_iff.mp fit]
    exact Iff.rfl
  | cons c rest ih =>
    cases texts with
    | nil => cases fit
    | cons t others =>
      rw [List.zipWith_cons_cons, List.forall_mem_cons, List.forall_mem_cons, encodable_pad,
        ih others (Nat.succ.inj fit)]

/-- A table has bytes exactly if all of its headers and cells have. -/
theorem encodable_lines (t : Table) : (∀ line ∈ t.lines, line.Encodable) ↔
    (∀ header ∈ t.headers, header.Encodable) ∧
      ∀ row ∈ t.rows, ∀ cell ∈ row, cell.content.Encodable := by
  have bar : Encodable (join "|" ((columns cellWidth t.headers t.rows).map rulePart)) := by
    rw [encodable_join _ (encodable_ofString _), List.forall_mem_map]
    exact fun c _ => encodable_rulePart c
  have top : (line cellWidth (columns cellWidth t.headers t.rows) t.headers).Encodable ↔
      ∀ header ∈ t.headers, header.Encodable := encodable_line _ _ (length_columns _ _).symm
  have below : ∀ row ∈ t.rows,
      ((line cellWidth (columns cellWidth t.headers t.rows) (row.map Cell.content)).Encodable ↔
        ∀ cell ∈ row, cell.content.Encodable) := by
    intro row member
    rw [encodable_line _ _ (by rw [List.length_map, length_columns, t.fit row member]),
      List.forall_mem_map]
  rw [lines, linesBy, List.forall_mem_cons, List.forall_mem_cons, List.forall_mem_map,
    and_iff_right bar, top]
  exact and_congr_right fun _ => forall₂_congr below

end LintCorpus.Table
