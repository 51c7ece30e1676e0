import LintCorpus.Proofs.Dict
import LintCorpus.Proofs.Json.Encodable
import LintCorpus.Proofs.Json.Numbers
import LintCorpus.Proofs.Json.Strings
import Mathlib.Tactic.IntervalCases

/-!
What is written as JSON is read back. A value is read back whatever it stands in, as long as
something follows it that ends a number, and where it stands plays no part. A value that holds a
date, a lone surrogate or a name twice has no text of its own.
-/
namespace LintCorpus

/-- A value that has a text of its own: no dates and times, characters only, distinct names. -/
inductive Value.Storable : Value → Prop
  | null : Storable .null
  | bool (b : Bool) : Storable (.bool b)
  | int (i : Int) : Storable (.int i)
  | float (x : Binary64) : Storable (.float x)
  | text {t : Text} (valid : t.Scalar) : Storable (.text t)
  | list {items : List Value} (all : ∀ v ∈ items, Storable v) : Storable (.list items)
  | object {members : List (Text × Value)} (distinct : (members.map Prod.fst).Nodup)
      (names : ∀ m ∈ members, m.1.Scalar) (all : ∀ m ∈ members, Storable m.2) :
      Storable (.object members)

namespace Json.Reader

def Takes (r : Reader) (t : Text) (next : Reader) : Prop :=
  ∀ position, ∃ moved, t.foldlM step { r with position } = .ok { next with position := moved }

def Delimiter (c : Nat) : Prop :=
  isSpace c = true ∨ c = ','.toNat ∨ c = ']'.toNat ∨ c = '\x7d'.toNat

/-- The text is read as the value where one is due and a delimiter follows. -/
def Reads (t : Text) (v : Value) : Prop :=
  ∀ (r : Reader) (canClose : Bool), r.phase = .value canClose → ∀ c rest, Delimiter c →
    ∃ moved, (t ++ c :: rest).foldlM step r =
      (c :: rest).foldlM step { r.complete v with position := moved }

variable {r next last : Reader} {t u : Text} {v : Value} {canClose : Bool}

theorem Takes.append (first : Takes r t next) (second : Takes next u last) :
    Takes r (t ++ u) last := by
  intro position
  obtain ⟨middle, taken⟩ := first position
  obtain ⟨moved, others⟩ := second middle
  exact ⟨moved, (foldlM_append_of_ok taken u).trans others⟩

theorem Takes.one {c : Nat}
    (taken : ∀ position, Reader.step { r with position } c = .ok { next with position := position + 1 }) :
    Takes r [c] next :=
  fun position => ⟨position + 1, foldlM_cons_of_ok (taken position) []⟩

theorem reads_of_takes
    (taken : ∀ (r : Reader) (canClose : Bool), r.phase = .value canClose → Takes r t (r.complete v)) :
    Reads t v := by
  intro r canClose phase c rest delimiter
  obtain ⟨moved, all⟩ := taken r canClose phase r.position
  exact ⟨moved, foldlM_append_of_ok all _⟩

theorem Reads.takes (reads : Reads t v) (phase : r.phase = .value canClose)
    (follows : ∃ c rest, u = c :: rest ∧ Delimiter c) (after : Takes (r.complete v) u next) :
    Takes r (t ++ u) next := by
  obtain ⟨c, rest, rfl, delimiter⟩ := follows
  intro position
  obtain ⟨middle, taken⟩ := reads { r with position } canClose phase c rest delimiter
  obtain ⟨moved, others⟩ := after middle
  refine ⟨moved, taken.trans ?_⟩
  rw [← others, ← complete_moved r middle r.phase v, ← complete_moved _ middle r.phase v]

section Scalars

theorem reads_text (valid : t.Scalar) : Reads (writeText t) (.text t) := by
  apply reads_of_takes
  intro r canClose phase position
  obtain ⟨moved, taken⟩ := foldlM_text valid (r := { r with position }) phase
  exact ⟨moved, taken.trans (by rw [complete_moved r position r.phase])⟩

theorem foldlM_literal (start : Nat) (rest : Text) (c : Nat)
    (phase : r.phase = .literal start (rest ++ [c]) v) :
    ∃ moved, (rest ++ [c]).foldlM step r = .ok { r.complete v with position := moved } := by
  induction rest generalizing r with
  | nil =>
    refine ⟨r.position + 1, foldlM_cons_of_ok ?_ []⟩
    simp only [step, phase, List.nil_append, stepLiteral, if_true]
  | cons d rest ih =>
    have taken : r.step d = .ok (r.advance (.literal start (rest ++ [c]) v)) := by
      obtain ⟨e, others, shape⟩ := List.exists_cons_of_ne_nil (l := rest ++ [c]) (by simp)
      simp only [step, phase, List.cons_append, shape, stepLiteral, if_true]
    obtain ⟨moved, others⟩ := ih (r := r.advance (.literal start (rest ++ [c]) v)) rfl
    refine ⟨moved, (foldlM_cons_of_ok taken _).trans (others.trans ?_)⟩
    rw [advance, complete_moved]

theorem reads_literal (first : Nat) (rest : Text) (last : Nat)
    (begins : ∀ (r : Reader) (canClose : Bool), r.phase = .value canClose →
      ∃ start, r.step first = .ok (r.advance (.literal start (rest ++ [last]) v))) :
    Reads (first :: (rest ++ [last])) v := by
  apply reads_of_takes
  intro r canClose phase position
  obtain ⟨start, begun⟩ := begins { r with position } canClose phase
  obtain ⟨moved, others⟩ := foldlM_literal start rest last (v := v)
    (r := ({ r with position } : Reader).advance (.literal start (rest ++ [last]) v)) rfl
  refine ⟨moved, (foldlM_cons_of_ok begun _).trans (others.trans ?_)⟩
  rw [advance, complete_moved, complete_moved r position r.phase]

theorem reads_negative_infinity : Reads "-Infinity" (.float (.infinity true)) := by
  apply reads_of_takes
  intro r canClose phase position
  let start : Nat := position
  have sign : ({ r with position } : Reader).step '-'.toNat =
      .ok (({ r with position } : Reader).advance
        (.number ⟨start, .sign, true, 0, 0, false, 0, start⟩)) := by
    simp only [step, phase]
    rfl
  have begun : (({ r with position } : Reader).advance
      (.number ⟨start, .sign, true, 0, 0, false, 0, start⟩)).step 'I'.toNat =
        .ok { r with
          position := position + 2
          phase := .literal start ("nfinit" ++ ['y'.toNat]) (.float (.infinity true)) } := rfl
  obtain ⟨moved, others⟩ := foldlM_literal start "nfinit" 'y'.toNat (v := .float (.infinity true))
    (r := { r with
      position := position + 2
      phase := .literal start ("nfinit" ++ ['y'.toNat]) (.float (.infinity true)) }) rfl
  refine ⟨moved, (foldlM_cons_of_ok sign _).trans
    ((foldlM_cons_of_ok begun _).trans (others.trans ?_))⟩
  rw [complete_moved]

theorem reads_null : Reads "null" .null :=
  reads_literal 'n'.toNat "ul" 'l'.toNat fun r canClose phase => ⟨r.position, by
    rw [step, phase]
    rfl⟩

theorem reads_bool (b : Bool) : Reads (if b then "true" else "false") (.bool b) := by
  cases b with
  | true =>
    exact reads_literal 't'.toNat "ru" 'e'.toNat fun r canClose phase => ⟨r.position, by
      rw [step, phase]
      rfl⟩
  | false =>
    exact reads_literal 'f'.toNat "als" 'e'.toNat fun r canClose phase => ⟨r.position, by
      rw [step, phase]
      rfl⟩

end Scalars

section Numbers

open NumberState

theorem foldlM_number {n m : NumberState} (phase : r.phase = .number n)
    (scanned : n.scan r.position t = some m) :
    t.foldlM step r = .ok { r with position := r.position + t.length, phase := .number m } := by
  induction t generalizing r n with
  | nil =>
    cases scanned
    rw [← phase]
    rfl
  | cons c rest ih =>
    rw [scan, Option.bind_eq_some_iff] at scanned
    obtain ⟨next, extended, others⟩ := scanned
    have taken : r.step c = .ok (r.advance (.number next)) := by
      simp only [step, phase, stepNumber, extended]
    rw [foldlM_cons_of_ok taken, ih (r := r.advance (.number next)) rfl others]
    simp only [advance, List.length_cons, Nat.add_assoc, Nat.add_comm 1]

theorem step_digit {n : NumberState} {c position : Nat} (phase : r.phase = .value canClose)
    (extended : (whole r.position false .sign 0).extend? position c = some n) :
    r.step c = .ok (r.advance (.number n)) := by
  have digit : 0x30 ≤ c ∧ c ≤ 0x39 := by
    by_contra other
    have none : (0x30 ≤ c && c ≤ 0x39) = false := by simpa using other
    simp [extend?, whole, none] at extended
  rw [step, phase]
  obtain ⟨low, high⟩ := digit
  interval_cases c <;> (cases extended; rfl)

theorem foldlM_delimiter {m : NumberState} {c : Nat} (rest : Text) (phase : r.phase = .number m)
    (ended : m.Ended) (delimiter : Delimiter c) :
    (c :: rest).foldlM step r = (c :: rest).foldlM step (r.complete m.value) := by
  have apart : ¬(0x30 ≤ c ∧ c ≤ 0x39) ∧ c ≠ 0x2E ∧ c ≠ 0x65 ∧ c ≠ 0x45 := by
    simp only [Delimiter, isSpace, Bool.or_eq_true, beq_iff_eq] at delimiter
    rcases delimiter with (((rfl | rfl) | rfl) | rfl) | rfl | rfl | rfl <;> decide
  have stops : m.extend? r.position c = none := by
    rcases ended with mode | mode | mode | mode <;> simp [extend?, mode, apart]
  have completed : (r.complete m.value).phase = .afterValue := by
    rw [complete]
    split <;> rfl
  have taken : r.step c = (r.complete m.value).step c := by
    rw [step, phase, step, completed]
    simp only [stepNumber, stops]
    rcases ended with mode | mode | mode | mode <;> rw [mode]
  rw [List.foldlM_cons, List.foldlM_cons, taken]

theorem reads_of_denotes (denotes : Denotes false t v) : Reads t v := by
  intro r canClose phase c rest delimiter
  obtain ⟨first, others, rfl⟩ := List.exists_cons_of_ne_nil denotes.ne_nil
  obtain ⟨m, scanned, ended, rfl⟩ := denotes r.position r.position
  rw [scan, Option.bind_eq_some_iff] at scanned
  obtain ⟨n, extended, remaining⟩ := scanned
  have taken := foldlM_number (r := r.advance (.number n)) rfl remaining
  have begun := foldlM_cons_of_ok (step_digit phase extended) (others ++ c :: rest)
  refine ⟨r.position + 1 + others.length, begun.trans ((foldlM_append_of_ok taken _).trans ?_)⟩
  rw [foldlM_delimiter rest rfl ended delimiter, advance, complete_moved, complete_moved]

theorem reads_of_denotes_negative (denotes : Denotes true t v) : Reads ('-'.toNat :: t) v := by
  intro r canClose phase c rest delimiter
  obtain ⟨m, scanned, ended, rfl⟩ := denotes r.position (r.position + 1)
  have sign : r.step '-'.toNat = .ok (r.advance (.number (whole r.position true .sign 0))) := by
    rw [step, phase]
    rfl
  have taken := foldlM_number (r := r.advance (.number (whole r.position true .sign 0))) rfl scanned
  have begun := foldlM_cons_of_ok sign (t ++ c :: rest)
  refine ⟨r.position + 1 + t.length, begun.trans ((foldlM_append_of_ok taken _).trans ?_)⟩
  rw [foldlM_delimiter rest rfl ended delimiter, advance, complete_moved, complete_moved]

theorem reads_int (i : Int) : Reads (Text.ofInt i) (.int i) := by
  unfold Text.ofInt
  split
  · next low =>
    have negative := denotes_ofNat true i.natAbs
    rw [if_pos rfl, show -(i.natAbs : Int) = i by omega] at negative
    exact reads_of_denotes_negative negative
  · next high =>
    have positive := denotes_ofNat false i.natAbs
    rw [if_neg (by decide), show (i.natAbs : Int) = i by omega] at positive
    exact reads_of_denotes positive

private theorem reads_signed (negative : Bool) (denotes : Denotes negative t v) :
    Reads ((if negative then ("-" : Text) else []) ++ t) v := by
  cases negative with
  | false => exact reads_of_denotes denotes
  | true => exact reads_of_denotes_negative denotes

/-- A number is read back from its shortest text, or from its name if it is not finite. -/
theorem reads_float (x : Binary64) : Reads (writeFloat x) (.float x) := by
  cases x with
  | nan =>
    exact reads_literal 'N'.toNat ['a'.toNat] 'N'.toNat fun r canClose phase => ⟨r.position, by
      rw [step, phase]
      rfl⟩
  | infinity negative =>
    cases negative with
    | false =>
      exact reads_literal 'I'.toNat "nfinit" 'y'.toNat fun r canClose phase => ⟨r.position, by
        rw [step, phase]
        rfl⟩
    | true => exact reads_negative_infinity
  | finite negative m =>
    have text : writeFloat (.finite negative m) = (if negative then ("-" : Text) else []) ++
        (if m.mantissa = 0 then ("0.0" : Text) else NumberLayout.default.write m.shortest) := rfl
    rw [text]
    by_cases zero : m.mantissa = 0
    · rw [if_pos zero, Magnitude.eq_zero zero]
      exact reads_signed negative (denotes_zero negative)
    · obtain ⟨some, read⟩ := m.ofDecimal_shortest negative zero
      have denotes := denotes_write .default rfl negative m.shortest some
      rw [read] at denotes
      rw [if_neg zero]
      exact reads_signed negative denotes

end Numbers

section Containers

variable {items done : List Value} {members earlier : List (Text × Value)} {name : Text}

theorem takes_spaces (spaces : ∀ c ∈ t, isSpace c = true)
    (phase : (∃ canClose, r.phase = .value canClose ∨ r.phase = .name canClose) ∨
      r.phase = .afterValue) : Takes r t r := by
  intro position
  induction t generalizing position with
  | nil => exact ⟨position, rfl⟩
  | cons c rest ih =>
    obtain ⟨space, others⟩ := List.forall_mem_cons.mp spaces
    have taken : Reader.step { r with position } c = .ok { r with position := position + 1 } := by
      rcases phase with ⟨canClose, phase | phase⟩ | phase <;>
        simp only [step, phase, stepValue, stepName, stepAfterValue, space, if_true, advance]
    obtain ⟨moved, remaining⟩ := ih others (position + 1)
    exact ⟨moved, (foldlM_cons_of_ok taken rest).trans remaining⟩

theorem spaces_lineBreak (layout : Layout) (depth : Nat) :
    ∀ c ∈ layout.lineBreak depth, isSpace c = true := by
  cases layout with
  | oneLine => exact nofun
  | indented =>
    refine List.forall_mem_cons.mpr ⟨rfl, fun c member => ?_⟩
    rw [List.eq_of_mem_replicate member]
    rfl

theorem exists_comma (layout : Layout) :
    ∃ spaces, layout.comma = ','.toNat :: spaces ∧ ∀ c ∈ spaces, isSpace c = true := by
  cases layout with
  | oneLine => exact ⟨[' '.toNat], rfl, by decide⟩
  | indented => exact ⟨[], rfl, nofun⟩

/-- What closes an array or an object delimits what it holds. -/
private theorem delimits_close (layout : Layout) (depth : Nat) {c : Nat} (closes : Delimiter c) :
    ∃ d rest, layout.lineBreak depth ++ [c] = d :: rest ∧ Delimiter d := by
  cases layout with
  | oneLine => exact ⟨c, [], rfl, closes⟩
  | indented => exact ⟨_, _, rfl, .inl rfl⟩

theorem exists_delimiter (layout : Layout) (depth outer : Nat) (items : List Value) :
    ∃ c rest, writeItems layout depth items ++ (layout.lineBreak outer ++ [']'.toNat]) = c :: rest ∧
      Delimiter c := by
  cases items with
  | nil => exact delimits_close layout outer (.inr (.inr (.inl rfl)))
  | cons v items =>
    obtain ⟨spaces, comma, -⟩ := exists_comma layout
    exact ⟨','.toNat, _, by rw [writeItems, comma]; rfl, .inr (.inl rfl)⟩

variable (position : Nat) (rest : List Frame) (result : Value)

private theorem takes_close_array (phase : Phase)
    (open_ : phase = .afterValue ∨ phase = .value true) :
    Takes ⟨position, .array done :: rest, phase, result⟩ [']'.toNat]
      (complete ⟨position, rest, phase, result⟩ (.list done.reverse)) := by
  apply Takes.one
  intro place
  have closed : Reader.step ⟨place, .array done :: rest, phase, result⟩ ']'.toNat =
      .ok { complete ⟨place, rest, phase, result⟩ (.list done.reverse) with
        position := place + 1 } := by
    rcases open_ with rfl | rfl <;> rfl
  have moved := complete_moved ⟨position, rest, phase, result⟩ place phase (.list done.reverse)
  rw [closed, moved]

private theorem takes_close_object (phase : Phase)
    (open_ : phase = .afterValue ∨ phase = .name true) (distinct : (members.map Prod.fst).Nodup) :
    Takes ⟨position, .object members name :: rest, phase, result⟩ ['\x7d'.toNat]
      (complete ⟨position, rest, phase, result⟩ (.object members.reverse)) := by
  apply Takes.one
  intro place
  have object : Value.ofMembers members.reverse = .object members.reverse := by
    rw [Value.ofMembers, Dict.entries_ofList]
    rw [List.map_reverse]
    exact List.nodup_reverse.mpr distinct
  have closed : Reader.step ⟨place, .object members name :: rest, phase, result⟩ '\x7d'.toNat =
      .ok { complete ⟨place, rest, phase, result⟩ (.ofMembers members.reverse) with
        position := place + 1 } := by
    rcases open_ with rfl | rfl <;> rfl
  have moved := complete_moved ⟨position, rest, phase, result⟩ place phase (.object members.reverse)
  rw [closed, object, moved]

/-- The items after the first, up to the end of the array. -/
theorem takes_items (done : List Value) (layout : Layout) (depth outer : Nat)
    (reads : ∀ v ∈ items, Reads (writeAt layout depth v) v) :
    Takes ⟨position, .array done :: rest, .afterValue, result⟩
      (writeItems layout depth items ++ (layout.lineBreak outer ++ [']'.toNat]))
      (complete ⟨position, rest, .afterValue, result⟩ (.list (done.reverse ++ items))) := by
  induction items generalizing done with
  | nil =>
    rw [List.append_nil]
    exact (takes_spaces (spaces_lineBreak layout outer) (.inr rfl)).append
      (takes_close_array position rest result _ (.inl rfl))
  | cons v items ih =>
    obtain ⟨first, others⟩ := List.forall_mem_cons.mp reads
    obtain ⟨spaces, comma, blank⟩ := exists_comma layout
    have separated : Takes ⟨position, .array done :: rest, .afterValue, result⟩ [','.toNat]
        ⟨position, .array done :: rest, .value false, result⟩ := Takes.one fun _ => rfl
    have between := takes_spaces (r := ⟨position, .array done :: rest, .value false, result⟩)
      (List.forall_mem_append.mpr ⟨blank, spaces_lineBreak layout depth⟩) (.inl ⟨false, .inl rfl⟩)
    have later := ih (v :: done) others
    rw [List.reverse_cons, List.append_assoc] at later
    have item := first.takes (r := ⟨position, .array done :: rest, .value false, result⟩) rfl
      (exists_delimiter layout depth outer items) later
    have text : writeItems layout depth (v :: items) ++ (layout.lineBreak outer ++ [']'.toNat]) =
        [','.toNat] ++ ((spaces ++ layout.lineBreak depth) ++ (writeAt layout depth v ++
          (writeItems layout depth items ++ (layout.lineBreak outer ++ [']'.toNat])))) := by
      simp only [writeItems, comma, List.cons_append, List.nil_append, List.append_assoc]
    rw [text]
    exact separated.append (between.append item)

theorem complete_phase (phase other : Phase) (v : Value) :
    complete ⟨position, rest, phase, result⟩ v = complete ⟨position, rest, other, result⟩ v := by
  rcases rest with - | ⟨⟨items⟩ | ⟨members, name⟩, rest⟩ <;> rfl

theorem takes_array (layout : Layout) (depth : Nat) (closes : Bool)
    (reads : ∀ v ∈ items, Reads (writeAt layout (depth + 1) v) v) :
    Takes ⟨position, rest, .value closes, result⟩ (writeAt layout depth (.list items))
      (complete ⟨position, rest, .value closes, result⟩ (.list items)) := by
  have opens : Takes ⟨position, rest, .value closes, result⟩ ['['.toNat]
      ⟨position, .array [] :: rest, .value true, result⟩ := Takes.one fun _ => rfl
  cases items with
  | nil =>
    rw [complete_phase _ _ _ _ (.value true)]
    exact opens.append (takes_close_array position rest result _ (.inr rfl))
  | cons v items =>
    obtain ⟨first, others⟩ := List.forall_mem_cons.mp reads
    have begins := takes_spaces (r := ⟨position, .array [] :: rest, .value true, result⟩)
      (spaces_lineBreak layout (depth + 1)) (.inl ⟨true, .inl rfl⟩)
    have later := takes_items position rest result [v] layout (depth + 1) depth others
    have item := first.takes (r := ⟨position, .array [] :: rest, .value true, result⟩) rfl
      (exists_delimiter layout (depth + 1) depth items) later
    have text : writeAt layout depth (.list (v :: items)) =
        ['['.toNat] ++ (layout.lineBreak (depth + 1) ++ (writeAt layout (depth + 1) v ++
          (writeItems layout (depth + 1) items ++ (layout.lineBreak depth ++ [']'.toNat])))) := by
      simp only [writeAt, List.append_assoc]
      rfl
    rw [text, complete_phase _ _ _ _ .afterValue]
    exact opens.append (begins.append item)

private theorem takes_member (valid : name.Scalar) (reads : Reads t v)
    (follows : ∃ c rest, u = c :: rest ∧ Delimiter c)
    (after : Takes ⟨position, .object ((name, v) :: members) name :: rest, .afterValue, result⟩ u
      next) (old : Text) (canClose : Bool) :
    Takes ⟨position, .object members old :: rest, .name canClose, result⟩
      (writeText name ++ (": " ++ (t ++ u))) next := by
  have named : Takes ⟨position, .object members old :: rest, .name canClose, result⟩ (writeText name)
      ⟨position, .object members name :: rest, .colon, result⟩ := fun place =>
    foldlM_name valid (r := ⟨place, .object members old :: rest, .name canClose, result⟩) rfl rfl
  have colon : Takes ⟨position, .object members name :: rest, .colon, result⟩ ": "
      ⟨position, .object members name :: rest, .value false, result⟩ := fun place => ⟨place + 2, rfl⟩
  have value := reads.takes (r := ⟨position, .object members name :: rest, .value false, result⟩) rfl
    follows after
  exact named.append (colon.append value)

theorem exists_delimiter_members (layout : Layout) (depth outer : Nat)
    (members : List (Text × Value)) :
    ∃ c rest, writeMembers layout depth members ++ (layout.lineBreak outer ++ ['\x7d'.toNat]) =
      c :: rest ∧ Delimiter c := by
  cases members with
  | nil => exact delimits_close layout outer (.inr (.inr (.inr rfl)))
  | cons m members =>
    obtain ⟨spaces, comma, -⟩ := exists_comma layout
    exact ⟨','.toNat, _, by rw [writeMembers, comma]; rfl, .inr (.inl rfl)⟩

/-- The members after the first, up to the end of the object. -/
theorem takes_members (earlier : List (Text × Value)) (old : Text) (layout : Layout)
    (depth outer : Nat) (names : ∀ m ∈ members, m.1.Scalar)
    (reads : ∀ m ∈ members, Reads (writeAt layout depth m.2) m.2)
    (distinct : ((earlier.reverse ++ members).map Prod.fst).Nodup) :
    Takes ⟨position, .object earlier old :: rest, .afterValue, result⟩
      (writeMembers layout depth members ++ (layout.lineBreak outer ++ ['\x7d'.toNat]))
      (complete ⟨position, rest, .afterValue, result⟩ (.object (earlier.reverse ++ members))) := by
  induction members generalizing earlier old with
  | nil =>
    rw [List.append_nil] at distinct ⊢
    rw [List.map_reverse, List.nodup_reverse] at distinct
    exact (takes_spaces (spaces_lineBreak layout outer) (.inr rfl)).append
      (takes_close_object position rest result _ (.inl rfl) distinct)
  | cons m members ih =>
    obtain ⟨name, v⟩ := m
    obtain ⟨valid, others⟩ := List.forall_mem_cons.mp names
    obtain ⟨first, remaining⟩ := List.forall_mem_cons.mp reads
    obtain ⟨spaces, comma, blank⟩ := exists_comma layout
    have separated : Takes ⟨position, .object earlier old :: rest, .afterValue, result⟩ [','.toNat]
        ⟨position, .object earlier old :: rest, .name false, result⟩ := Takes.one fun _ => rfl
    have between := takes_spaces (r := ⟨position, .object earlier old :: rest, .name false, result⟩)
      (List.forall_mem_append.mpr ⟨blank, spaces_lineBreak layout depth⟩) (.inl ⟨false, .inr rfl⟩)
    have grown : ((name, v) :: earlier).reverse ++ members = earlier.reverse ++ (name, v) :: members := by
      rw [List.reverse_cons, List.append_assoc]
      rfl
    have later := ih ((name, v) :: earlier) name others remaining (by rwa [grown])
    rw [grown] at later
    have member := takes_member position rest result valid first
      (exists_delimiter_members layout depth outer members) later old false
    have text : writeMembers layout depth ((name, v) :: members) ++
        (layout.lineBreak outer ++ ['\x7d'.toNat]) =
        [','.toNat] ++ ((spaces ++ layout.lineBreak depth) ++ (writeText name ++ (": " ++
          (writeAt layout depth v ++
            (writeMembers layout depth members ++ (layout.lineBreak outer ++ ['\x7d'.toNat])))))) := by
      simp only [writeMembers, comma, List.cons_append, List.nil_append, List.append_assoc]
    rw [text]
    exact separated.append (between.append member)

theorem takes_object (layout : Layout) (depth : Nat) (closes : Bool)
    (names : ∀ m ∈ members, m.1.Scalar)
    (reads : ∀ m ∈ members, Reads (writeAt layout (depth + 1) m.2) m.2)
    (distinct : (members.map Prod.fst).Nodup) :
    Takes ⟨position, rest, .value closes, result⟩ (writeAt layout depth (.object members))
      (complete ⟨position, rest, .value closes, result⟩ (.object members)) := by
  have opens : Takes ⟨position, rest, .value closes, result⟩ ['\x7b'.toNat]
      ⟨position, .object [] [] :: rest, .name true, result⟩ := Takes.one fun _ => rfl
  cases members with
  | nil =>
    rw [complete_phase _ _ _ _ (.name true)]
    exact opens.append (takes_close_object position rest result _ (.inr rfl) distinct)
  | cons m members =>
    obtain ⟨name, v⟩ := m
    obtain ⟨valid, others⟩ := List.forall_mem_cons.mp names
    obtain ⟨first, remaining⟩ := List.forall_mem_cons.mp reads
    have begins := takes_spaces (r := ⟨position, .object [] [] :: rest, .name true, result⟩)
      (spaces_lineBreak layout (depth + 1)) (.inl ⟨true, .inr rfl⟩)
    have later := takes_members position rest result [(name, v)] name layout (depth + 1) depth
      others remaining distinct
    have member := takes_member position rest result valid first
      (exists_delimiter_members layout (depth + 1) depth members) later [] true
    have text : writeAt layout depth (.object ((name, v) :: members)) =
        ['\x7b'.toNat] ++ (layout.lineBreak (depth + 1) ++ (writeText name ++ (": " ++
          (writeAt layout (depth + 1) v ++ (writeMembers layout (depth + 1) members ++
            (layout.lineBreak depth ++ ['\x7d'.toNat])))))) := by
      simp only [writeAt, List.append_assoc]
      rfl
    rw [text, complete_phase _ _ _ _ .afterValue]
    exact opens.append (begins.append member)

end Containers

theorem reads_writeAt (layout : Layout) {v : Value} (storable : v.Storable) (depth : Nat) :
    Reads (writeAt layout depth v) v := by
  induction storable generalizing depth with
  | null => exact reads_null
  | bool b => exact reads_bool b
  | int i => exact reads_int i
  | float x => exact reads_float x
  | text valid => exact reads_text valid
  | list all ih =>
    apply reads_of_takes
    rintro ⟨position, stack, phase, result⟩ closes rfl
    exact takes_array position stack result layout depth closes fun v member => ih v member _
  | object distinct names all ih =>
    apply reads_of_takes
    rintro ⟨position, stack, phase, result⟩ closes rfl
    exact takes_object position stack result layout depth closes names
      (fun m member => ih m member _) distinct

end Json.Reader

namespace Json

/-- A line that holds the text of a value is read as the value. -/
theorem read_write (layout : Layout) {v : Value} (storable : v.Storable) :
    read (write layout v ++ "\n") = .ok v := by
  have feed : ("\n" : Text) = [0x0A] := rfl
  have unmarked : (write layout v ++ "\n").head? ≠ some 0xFEFF := by
    intro marked
    have plain : Text.Plain (write layout v ++ "\n") :=
      (Text.plain_append _ _).mpr ⟨plain_write layout v, by decide⟩
    have mark := plain _ (List.mem_of_head? marked)
    omega
  obtain ⟨moved, taken⟩ := Reader.reads_writeAt layout storable 0 {} false rfl 0x0A [] (.inl rfl)
  rw [read, if_neg unmarked, feed, write, taken]
  rfl

end Json
end LintCorpus
