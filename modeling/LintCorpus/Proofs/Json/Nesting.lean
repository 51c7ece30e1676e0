import LintCorpus.Json.Reader
import LintCorpus.Stream.Scanner
import Mathlib.Data.List.Basic
import Mathlib.Tactic.SplitIfs

/-!
Braces seen by the scanner and by the JSON reader. As long as the reader accepts what it is given,
the scanner's state is a function of the reader's: the depth counts the open objects, and the rest
says where in a string the reader is. A text that begins with a brace stays inside that object up
to the brace that closes it.
-/
namespace LintCorpus.Json

def Frame.isObject : Frame → Bool
  | .object _ _ => true
  | .array _ => false

def Phase.inString : Phase → Bool
  | .string _ => true
  | _ => false

def Phase.escaped : Phase → Bool
  | .string s => match s.mode with
    | .backslash _ => true
    | _ => false
  | _ => false

theorem Phase.escaped_eq_false {p : Phase} (outside : p.inString = false) : p.escaped = false := by
  cases p <;> first | rfl | cases outside

/-- Where a phase can occur: a name is due only in an object, `]` may come at once only in an array,
and the rest of a literal name is letters. -/
def Phase.Fits (outline : List Bool) : Phase → Prop
  | .name _ => outline.head? = some true
  | .value true => outline.head? = some false
  | .literal _ rest _ => ∀ c ∈ rest, 0x41 ≤ c ∧ c ≤ 0x7A
  | _ => True

namespace Reader

/-- The open arrays and objects, innermost first; an object is `true`. -/
def outline (r : Reader) : List Bool := r.stack.map Frame.isObject

/-- What the scanner knows where the reader is. -/
def nesting (r : Reader) : Scanner :=
  { depth := r.outline.count true, inString := r.phase.inString, escaped := r.phase.escaped }

/-- The reader after a beginning of an object: its phase fits what is open, the outermost of what
is open is an object, and nothing is open only after that object has ended. -/
structure Nested (r : Reader) : Prop where
  fits : r.phase.Fits r.outline
  root : r.outline.getLast? = some true ∨
    r.outline = [] ∧ r.phase = .afterValue ∧ ∃ members, r.result = .object members

/-- One accepted code point: the scanner takes it the same way, it closes nothing that is not
open, and the reader stays where it can only be after a beginning of an object. -/
structure Follows (r : Reader) (c : Nat) (next : Reader) : Prop where
  nesting : next.nesting = r.nesting.step c
  closes : r.nesting.overcloses c = false
  nested : next.Nested

@[simp] theorem outline_advance (r : Reader) (p : Phase) : (r.advance p).outline = r.outline := rfl

@[simp] theorem phase_advance (r : Reader) (p : Phase) : (r.advance p).phase = p := rfl

@[simp] theorem outline_complete (r : Reader) (v : Value) : (r.complete v).outline = r.outline := by
  unfold complete
  split <;> rename_i stack <;> simp [outline, stack, Frame.isObject]

@[simp] theorem phase_complete (r : Reader) (v : Value) : (r.complete v).phase = .afterValue := by
  unfold complete
  split <;> rfl

theorem outline_close (r : Reader) : r.close.outline = r.outline.tail := by
  unfold close
  split <;> rename_i stack
  · simp [outline, stack]
  · rw [outline_complete]
    simp [outline, stack]
  · rw [outline_complete]
    simp [outline, stack]

theorem phase_close (r : Reader) (present : r.outline ≠ []) : r.close.phase = .afterValue := by
  unfold close
  split <;> rename_i stack
  · simp [outline, stack] at present
  · exact phase_complete _ _
  · exact phase_complete _ _

private theorem root_of_outside {r : Reader} (nested : r.Nested) (other : r.phase ≠ .afterValue) :
    r.outline.getLast? = some true :=
  nested.root.resolve_right fun ended => other ended.2.1

private theorem nested_complete {r : Reader} (root : r.outline.getLast? = some true) (v : Value) :
    (r.complete v).Nested where
  fits := by rw [phase_complete]; trivial
  root := .inl (by rwa [outline_complete])

private theorem nested_close {r : Reader} (root : r.outline.getLast? = some true) :
    r.close.Nested := by
  unfold close
  split
  · rename_i empty
    simp [outline, empty] at root
  · rename_i items rest stack
    apply nested_complete
    cases rest with
    | nil => simp [outline, stack, Frame.isObject] at root
    | cons frame more => simpa [outline, stack] using root
  · rename_i members name rest stack
    cases rest with
    | nil =>
      refine ⟨by rw [phase_complete]; trivial, .inr ⟨by rw [outline_complete]; rfl, phase_complete _ _, ?_⟩⟩
      exact ⟨(Dict.ofList members.reverse).entries, rfl⟩
    | cons frame more =>
      apply nested_complete
      simpa [outline, stack] using root

private theorem nesting_of_outside {r : Reader} (outside : r.phase.inString = false) :
    r.nesting = { depth := r.outline.count true } := by
  simp [nesting, outside, Phase.escaped_eq_false]

private theorem follows_quiet {r next : Reader} {c : Nat} (outside : r.phase.inString = false)
    (still : next.phase.inString = false)
    (same : next.outline.count true = r.outline.count true)
    (quote : c ≠ '"'.toNat) (opening : c ≠ '\x7b'.toNat) (closing : c ≠ '\x7d'.toNat)
    (nested : next.Nested) : r.Follows c next where
  nesting := by
    rw [nesting_of_outside outside, nesting_of_outside still, same, Scanner.step, if_neg (by simp),
      if_neg quote, if_neg opening, if_neg closing]
  closes := by
    have other : (c == '\x7d'.toNat) = false := beq_eq_false_iff_ne.mpr closing
    rw [Scanner.overcloses, other, Bool.and_false, Bool.false_and]
  nested := nested

private theorem follows_quote {r next : Reader} (outside : r.phase.inString = false)
    (s : StringState) (begun : next.phase = .string s) (unicode : Option Nat)
    (plain : s.mode = .plain unicode) (same : next.outline = r.outline) (nested : next.Nested) :
    r.Follows '"'.toNat next where
  nesting := by
    rw [nesting_of_outside outside]
    simp [nesting, Scanner.step, begun, same, Phase.inString, Phase.escaped, plain]
  closes := by simp [Scanner.overcloses]
  nested := nested

private theorem follows_open {r next : Reader} (outside : r.phase.inString = false)
    (still : next.phase.inString = false) (grown : next.outline = true :: r.outline)
    (nested : next.Nested) : r.Follows '\x7b'.toNat next where
  nesting := by
    rw [nesting_of_outside outside, nesting_of_outside still]
    simp [Scanner.step, grown]
  closes := by simp [Scanner.overcloses]
  nested := nested

private theorem follows_close {r next : Reader} (outside : r.phase.inString = false)
    (still : next.phase.inString = false) (shrunk : r.outline = true :: next.outline)
    (nested : next.Nested) : r.Follows '\x7d'.toNat next where
  nesting := by
    rw [nesting_of_outside outside, nesting_of_outside still]
    simp [Scanner.step, shrunk]
  closes := by simp [Scanner.overcloses, nesting, shrunk]
  nested := nested

private theorem nested_moved {r : Reader} (nested : r.Nested) (position : Nat) :
    { r with position }.Nested :=
  ⟨nested.fits, nested.root⟩

private theorem marks_ne_of_space {c : Nat} (space : isSpace c = true) :
    c ≠ '"'.toNat ∧ c ≠ '\x7b'.toNat ∧ c ≠ '\x7d'.toNat := by
  simp only [isSpace, Bool.or_eq_true, beq_iff_eq] at space
  refine ⟨?_, ?_, ?_⟩ <;> simp <;> omega

private theorem follows_space {r : Reader} {c : Nat} (nested : r.Nested)
    (outside : r.phase.inString = false) (space : isSpace c = true) :
    r.Follows c (r.advance r.phase) := by
  obtain ⟨quote, opening, closing⟩ := marks_ne_of_space space
  exact follows_quiet outside outside rfl quote opening closing (nested_moved nested _)

private theorem follows_end {r : Reader} {c : Nat} (outside : r.phase.inString = false)
    (root : r.outline.getLast? = some true) (object : Bool)
    (innermost : r.outline.head? = some object)
    (mark : c = if object then '\x7d'.toNat else ']'.toNat) :
    r.Follows c { r.close with position := r.position + 1 } := by
  have present : r.outline ≠ [] := by
    intro empty
    simp [empty] at innermost
  have split : r.outline = object :: r.close.outline := by
    rw [outline_close]
    exact (List.cons_head?_tail innermost).symm
  have still : r.close.phase.inString = false := by rw [phase_close r present]; rfl
  have after : { r.close with position := r.position + 1 }.Nested := nested_moved (nested_close root) _
  subst mark
  cases object with
  | true => exact follows_close outside still split after
  | false => exact follows_quiet outside still (by rw [split]; simp [outline]) (by simp) (by simp) (by simp) after

private theorem stepAfterValue_follows {r next : Reader} {c : Nat} (nested : r.Nested)
    (ended : r.phase = .afterValue) (taken : r.stepAfterValue c = .ok next) : r.Follows c next := by
  have outside : r.phase.inString = false := by rw [ended]; rfl
  unfold stepAfterValue at taken
  split at taken
  · rename_i space
    cases taken
    rw [← ended]
    exact follows_space nested outside space
  · split at taken
    · rename_i items rest stack
      have innermost : r.outline.head? = some false := by simp [outline, stack, Frame.isObject]
      have root := nested.root.resolve_right fun none => by simp [none.1] at innermost
      split_ifs at taken with comma bracket
      · cases taken
        subst comma
        exact follows_quiet outside rfl rfl (by simp) (by simp) (by simp)
          ⟨trivial, .inl root⟩
      · cases taken
        exact follows_end outside root false innermost bracket
    · rename_i members name rest stack
      have innermost : r.outline.head? = some true := by simp [outline, stack, Frame.isObject]
      have root := nested.root.resolve_right fun none => by simp [none.1] at innermost
      split_ifs at taken with comma brace
      · cases taken
        subst comma
        exact follows_quiet outside rfl rfl (by simp) (by simp) (by simp)
          ⟨innermost, .inl root⟩
      · cases taken
        exact follows_end outside root true innermost brace
    · cases taken

private theorem getLast?_push {kinds : List Bool} (root : kinds.getLast? = some true) (kind : Bool) :
    (kind :: kinds).getLast? = some true := by
  cases kinds with
  | nil => cases root
  | cons first rest => exact root

private theorem nested_object {r : Reader} (root : r.outline.getLast? = some true) :
    { r.advance (.name true) with stack := .object [] [] :: r.stack }.Nested where
  fits := rfl
  root := .inl (getLast?_push root true)

private theorem nested_array {r : Reader} (root : r.outline.getLast? = some true) :
    { r.advance (.value true) with stack := .array [] :: r.stack }.Nested where
  fits := rfl
  root := .inl (getLast?_push root false)

private theorem stepValue_follows {r next : Reader} {canClose : Bool} {c : Nat} (nested : r.Nested)
    (due : r.phase = .value canClose) (taken : r.stepValue canClose c = .ok next) :
    r.Follows c next := by
  have outside : r.phase.inString = false := by rw [due]; rfl
  have root := root_of_outside nested (by simp [due])
  have fits := nested.fits
  rw [due] at fits
  unfold stepValue at taken
  extract_lets start number literal at taken
  obtain ⟨space, taken⟩ | ⟨-, taken⟩ := ite_eq_iff.mp taken
  · cases taken
    rw [← due]
    exact follows_space nested outside space
  obtain ⟨bracket, taken⟩ | ⟨-, taken⟩ := ite_eq_iff.mp taken
  · cases taken
    simp only [Bool.and_eq_true, decide_eq_true_eq] at bracket
    obtain ⟨bracket, rfl⟩ := bracket
    exact follows_end outside root false fits bracket
  obtain ⟨quote, taken⟩ | ⟨quote, taken⟩ := ite_eq_iff.mp taken
  · cases taken
    subst quote
    exact follows_quote outside _ rfl none rfl rfl ⟨trivial, .inl root⟩
  obtain ⟨brace, taken⟩ | ⟨brace, taken⟩ := ite_eq_iff.mp taken
  · cases taken
    subst brace
    exact follows_open outside rfl rfl (nested_object root)
  obtain ⟨bracket, taken⟩ | ⟨bracket, taken⟩ := ite_eq_iff.mp taken
  · cases taken
    subst bracket
    exact follows_quiet outside rfl rfl (by simp) (by simp) (by simp) (nested_array root)
  -- What is left begins a number or the name of a literal.
  have token : ∀ p : Phase, p.inString = false → p.Fits r.outline → c ≠ '\x7d'.toNat →
      r.Follows c (r.advance p) := fun p still fits closing =>
    follows_quiet outside still rfl quote brace closing ⟨fits, .inl root⟩
  iterate 3
    obtain ⟨mark, taken⟩ | ⟨-, taken⟩ := ite_eq_iff.mp taken
    · cases taken
      refine token _ rfl trivial fun closing => ?_
      rw [closing] at mark
      simp at mark
  iterate 5
    obtain ⟨mark, taken⟩ | ⟨-, taken⟩ := ite_eq_iff.mp taken
    · cases taken
      refine token _ rfl (by dsimp only [Phase.Fits]; decide) fun closing => ?_
      rw [closing] at mark
      simp at mark
  cases taken

private theorem stepName_follows {r next : Reader} {canClose : Bool} {c : Nat} (nested : r.Nested)
    (due : r.phase = .name canClose) (taken : r.stepName canClose c = .ok next) :
    r.Follows c next := by
  have outside : r.phase.inString = false := by rw [due]; rfl
  have root := root_of_outside nested (by simp [due])
  have fits := nested.fits
  rw [due] at fits
  unfold stepName at taken
  split_ifs at taken with space quote brace
  · cases taken
    rw [← due]
    exact follows_space nested outside space
  · cases taken
    subst quote
    exact follows_quote outside _ rfl none rfl rfl ⟨trivial, .inl root⟩
  · cases taken
    simp only [Bool.and_eq_true, decide_eq_true_eq] at brace
    exact follows_end outside root true fits brace.1

private theorem stepColon_follows {r next : Reader} {c : Nat} (nested : r.Nested)
    (due : r.phase = .colon) (taken : r.stepColon c = .ok next) : r.Follows c next := by
  have outside : r.phase.inString = false := by rw [due]; rfl
  have root := root_of_outside nested (by simp [due])
  unfold stepColon at taken
  split_ifs at taken with space colon
  · cases taken
    rw [← due]
    exact follows_space nested outside space
  · cases taken
    subst colon
    exact follows_quiet outside rfl rfl (by simp) (by simp) (by simp) ⟨trivial, .inl root⟩

private theorem stepLiteral_follows {r next : Reader} {start : Nat} {rest : Text} {v : Value}
    {c : Nat} (nested : r.Nested) (due : r.phase = .literal start rest v)
    (taken : r.stepLiteral start rest v c = .ok next) : r.Follows c next := by
  have outside : r.phase.inString = false := by rw [due]; rfl
  have root := root_of_outside nested (by simp [due])
  have letters : ∀ d ∈ rest, 0x41 ≤ d ∧ d ≤ 0x7A := by
    have fits := nested.fits
    rwa [due] at fits
  have quiet : ∀ next : Reader, c ∈ rest → next.phase.inString = false →
      next.outline = r.outline → next.Nested → r.Follows c next := by
    intro next member still same inside
    have bounds := letters c member
    exact follows_quiet outside still (by rw [same]) (by simp; omega) (by simp; omega)
      (by simp; omega) inside
  unfold stepLiteral at taken
  split at taken
  · split_ifs at taken with last
    cases taken
    exact quiet _ (by simp [last]) (by simp [Phase.inString]) (outline_complete r v)
      (nested_moved (nested_complete root v) _)
  · rename_i first others _
    split_ifs at taken with expected
    cases taken
    exact quiet _ (by simp [expected]) rfl rfl
      ⟨fun d member => letters d (by simp [member]), .inl root⟩
  · cases taken

private theorem follows_completed {r next : Reader} {v : Value} {c : Nat}
    (outside : r.phase.inString = false) (root : r.outline.getLast? = some true)
    (taken : (r.complete v).stepAfterValue c = .ok next) : r.Follows c next := by
  have after := stepAfterValue_follows (nested_complete root v) (phase_complete r v) taken
  have same : (r.complete v).nesting = r.nesting := by
    rw [nesting_of_outside outside, nesting_of_outside (by rw [phase_complete]; rfl), outline_complete]
  exact ⟨same ▸ after.nesting, same ▸ after.closes, after.nested⟩

private theorem extend?_mark (n : NumberState) (position c : Nat)
    (mark : c = '"'.toNat ∨ c = '\x7b'.toNat ∨ c = '\x7d'.toNat) : n.extend? position c = none := by
  rcases mark with rfl | rfl | rfl <;> cases mode : n.mode <;> simp [NumberState.extend?, mode]

private theorem stepNumber_follows {r next : Reader} {n : NumberState} {c : Nat} (nested : r.Nested)
    (due : r.phase = .number n) (taken : r.stepNumber n c = .ok next) : r.Follows c next := by
  have outside : r.phase.inString = false := by rw [due]; rfl
  have root := root_of_outside nested (by simp [due])
  unfold stepNumber at taken
  split at taken
  · rename_i longer extended
    cases taken
    have plain : ∀ mark, mark = '"'.toNat ∨ mark = '\x7b'.toNat ∨ mark = '\x7d'.toNat → c ≠ mark := by
      intro mark kind same
      subst same
      rw [extend?_mark n _ c kind] at extended
      cases extended
    exact follows_quiet outside rfl rfl (plain _ (by simp)) (plain _ (by simp)) (plain _ (by simp))
      ⟨trivial, .inl root⟩
  · split at taken
    · split_ifs at taken with infinity
      cases taken
      subst infinity
      exact follows_quiet outside rfl rfl (by simp) (by simp) (by simp)
        ⟨(by decide : ∀ d ∈ Text.ofString "nfinity", 0x41 ≤ d ∧ d ≤ 0x7A), .inl root⟩
    · cases taken
    · cases taken
    · cases taken
    · exact follows_completed outside root taken

private theorem follows_string {r next : Reader} {s t : StringState} {c : Nat}
    (within : r.phase = .string s) (still : next.phase = .string t) (same : next.outline = r.outline)
    (open_ : r.phase.escaped = false → c ≠ '"'.toNat)
    (escape : next.phase.escaped = (!r.phase.escaped && c == '\\'.toNat))
    (nested : next.Nested) : r.Follows c next where
  nesting := by
    have insideNow : r.phase.inString = true := by rw [within]; rfl
    have insideNext : next.phase.inString = true := by rw [still]; rfl
    unfold nesting
    rw [insideNext, insideNow, escape, same]
    cases escaped : r.phase.escaped with
    | true => simp [Scanner.step]
    | false =>
      have other := open_ escaped
      by_cases backslash : c = '\\'.toNat
      · simp [Scanner.step, backslash]
      · rw [Scanner.step, if_pos rfl, if_neg (by simp), if_neg backslash, if_neg other]
        have other : (c == '\\'.toNat) = false := beq_eq_false_iff_ne.mpr backslash
        rw [other]
        rfl
  closes := by
    have insideNow : r.phase.inString = true := by rw [within]; rfl
    simp [Scanner.overcloses, nesting, insideNow]
  nested := nested

@[simp] private theorem outline_finishString (r : Reader) (s : StringState) :
    (r.finishString s).outline = r.outline := by
  unfold finishString
  dsimp only
  split
  · split
    · rename_i stack
      simp [outline, stack, Frame.isObject]
    · rfl
  · exact outline_complete _ _

private theorem phase_finishString (r : Reader) (s : StringState) :
    (r.finishString s).phase = .colon ∨ (r.finishString s).phase = .afterValue := by
  unfold finishString
  dsimp only
  split
  · split
    · exact .inl rfl
    · exact .inl rfl
  · exact .inr (phase_complete _ _)

private theorem hexValue?_mark {c d : Nat} (hex : hexValue? c = some d) :
    c ≠ '"'.toNat ∧ c ≠ '\\'.toNat := by
  constructor <;> rintro rfl <;> simp [hexValue?] at hex

private theorem follows_unquote {r : Reader} {s : StringState} (within : r.phase = .string s)
    (unescaped : r.phase.escaped = false) (root : r.outline.getLast? = some true) :
    r.Follows '"'.toNat { r.finishString s with position := r.position + 1 } := by
  have insideNow : r.phase.inString = true := by rw [within]; rfl
  have outside : (r.finishString s).phase.inString = false := by
    rcases phase_finishString r s with ended | ended <;> rw [ended] <;> rfl
  refine ⟨?_, by simp [Scanner.overcloses], ?_⟩
  · have after := nesting_of_outside (r := { r.finishString s with position := r.position + 1 }) outside
    rw [after]
    have same : ({ r.finishString s with position := r.position + 1 } : Reader).outline = r.outline :=
      outline_finishString r s
    rw [same]
    simp [nesting, insideNow, unescaped, Scanner.step]
  · refine nested_moved ⟨?_, .inl (by simpa using root)⟩ _
    rcases phase_finishString r s with ended | ended <;> rw [ended] <;> trivial

private theorem stepString_follows {r next : Reader} {s : StringState} {c : Nat} (nested : r.Nested)
    (within : r.phase = .string s) (taken : r.stepString s c = .ok next) : r.Follows c next := by
  have root := root_of_outside nested (by simp [within])
  unfold stepString at taken
  split at taken
  · rename_i unicode mode
    have unescaped : r.phase.escaped = false := by simp [within, Phase.escaped, mode]
    split_ifs at taken with quote backslash control
    · cases taken
      subst quote
      exact follows_unquote within unescaped root
    · cases taken
      subst backslash
      exact follows_string within rfl rfl (by simp) (by rw [unescaped]; rfl) ⟨trivial, .inl root⟩
    · cases taken
      refine follows_string within rfl rfl (fun _ => quote) ?_ ⟨trivial, .inl root⟩
      rw [unescaped, beq_eq_false_iff_ne.mpr backslash]
      rfl
  · rename_i joins mode
    have escaped : r.phase.escaped = true := by simp [within, Phase.escaped, mode]
    have inside : ∀ t : StringState, (Phase.string t).escaped = false →
        r.Follows c (r.advance (.string t)) := fun t plain =>
      follows_string within rfl rfl (by simp [escaped]) (by simp [escaped, plain]) ⟨trivial, .inl root⟩
    split_ifs at taken with unicode
    · cases taken
      exact inside _ rfl
    · split at taken
      · cases taken
        exact inside _ rfl
      · cases taken
  · rename_i joins place count value mode
    have unescaped : r.phase.escaped = false := by simp [within, Phase.escaped, mode]
    split at taken
    · cases taken
    · rename_i d hex
      obtain ⟨quote, backslash⟩ := hexValue?_mark hex
      have inside : ∀ t : StringState, (Phase.string t).escaped = false →
          r.Follows c (r.advance (.string t)) := fun t plain => by
        refine follows_string within rfl rfl (fun _ => quote) ?_ ⟨trivial, .inl root⟩
        rw [unescaped, beq_eq_false_iff_ne.mpr backslash]
        exact plain
      dsimp only at taken
      split_ifs at taken with more
      · cases taken
        exact inside _ rfl
      · cases taken
        exact inside _ rfl

/-- The scanner follows the reader through every code point that the reader accepts. -/
theorem step_follows {r next : Reader} {c : Nat} (nested : r.Nested) (taken : r.step c = .ok next) :
    r.Follows c next := by
  unfold step at taken
  split at taken
  · exact stepValue_follows nested ‹_› taken
  · exact stepName_follows nested ‹_› taken
  · exact stepColon_follows nested ‹_› taken
  · exact stepAfterValue_follows nested ‹_› taken
  · exact stepString_follows nested ‹_› taken
  · exact stepNumber_follows nested ‹_› taken
  · exact stepLiteral_follows nested ‹_› taken

end Reader
end LintCorpus.Json
