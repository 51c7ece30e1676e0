import LintCorpus.LintName
import LintCorpus.Proofs.Text.Blank
import LintCorpus.Workspace

/-!
The names of lints that people type. A name may be written in capitals, with hyphens, with the tool
in front and with white space around it. What is looked at is the small form of what was typed, so
besides the code points of names the Kelvin sign gets through, whose small form is a letter of
ASCII.
-/
namespace LintCorpus

namespace Text

theorem removeStart_cases (t start : Text) :
    (∃ rest, t = start ++ rest ∧ t.removeStart start = rest) ∨
      t.startsWith start = false ∧ t.removeStart start = t := by
  rw [removeStart]
  cases begins : t.startsWith start with
  | true =>
    obtain ⟨rest, rfl⟩ := List.isPrefixOf_iff_prefix.mp begins
    exact .inl ⟨rest, rfl, by rw [if_pos rfl, List.drop_left]⟩
  | false => exact .inr ⟨rfl, if_neg Bool.false_ne_true⟩

theorem removeStart_append (start rest : Text) : (start ++ rest).removeStart start = rest := by
  have begins : (start ++ rest).startsWith start = true :=
    List.isPrefixOf_iff_prefix.mpr (List.prefix_append start rest)
  rw [removeStart, begins, if_pos rfl, List.drop_left]

end Text

namespace LintName

open Text

/-- The small form of a letter of ASCII; anything else stands for itself. -/
def small (c : Nat) : Nat := if 0x41 ≤ c ∧ c ≤ 0x5A then c + 0x20 else c

/-- The sign of the unit of temperature. Its small form is the letter of ASCII. -/
def kelvinSign : Nat := 0x212A

def smallForm (c : Nat) : Nat := if c = kelvinSign then 'k'.toNat else small c

/-- The second text is a small form of the first. Two code points outside of ASCII have letters of
ASCII in theirs; whatever the small forms of the others are, there is no ASCII in them. -/
inductive Lowered : Text → Text → Prop
  | nil : Lowered [] []
  | ascii {c : Nat} {t u : Text} : c < 0x80 → Lowered t u → Lowered (c :: t) (small c :: u)
  | kelvin {t u : Text} : Lowered t u → Lowered (kelvinSign :: t) ('k'.toNat :: u)
  | dotted {t u : Text} : Lowered t u → Lowered (0x130 :: t) ('i'.toNat :: 0x307 :: u)
  | other {c : Nat} {piece t u : Text} : 0x80 ≤ c → c ≠ kelvinSign → c ≠ 0x130 → piece ≠ [] →
      (∀ d ∈ piece, 0x80 ≤ d) → Lowered t u → Lowered (c :: t) (piece ++ u)

theorem lowered_foldCase (t : Text) : Lowered t t.foldCase := by
  induction t with
  | nil => exact .nil
  | cons c rest ih =>
    rw [foldCase, List.flatMap_cons, ← foldCase]
    by_cases ascii : c < 0x80
    · have one : foldOne c = [small c] := by
        have tables : c ≠ 0x212A ∧ c ≠ 0x130 := by omega
        simp only [foldOne, small, Bool.and_eq_true, decide_eq_true_eq, if_neg tables.1,
          if_neg tables.2]
        split <;> rfl
      rw [one]
      exact .ascii ascii ih
    · by_cases kelvin : c = kelvinSign
      · subst kelvin
        exact .kelvin ih
      by_cases dotted : c = 0x130
      · subst dotted
        exact .dotted ih
      have one : foldOne c = [c] := by
        have capital : ¬(0x41 ≤ c ∧ c ≤ 0x5A) := by omega
        simp only [foldOne, Bool.and_eq_true, decide_eq_true_eq, if_neg capital,
          if_neg (show c ≠ 0x212A from kelvin), if_neg dotted]
      rw [one]
      exact .other (by omega) kelvin dotted (List.cons_ne_nil c []) (by simpa using ascii) ih

namespace Lowered

variable {t u : Text}

/-- Only ASCII and the Kelvin sign come to a text of ASCII. -/
theorem plain (lowered : Lowered t u) (ascii : ∀ d ∈ u, d < 0x80) :
    ∀ c ∈ t, c < 0x80 ∨ c = kelvinSign := by
  induction lowered with
  | nil => exact nofun
  | ascii here _ ih =>
    exact List.forall_mem_cons.mpr ⟨.inl here, ih fun d among => ascii d (.tail _ among)⟩
  | kelvin _ ih =>
    exact List.forall_mem_cons.mpr ⟨.inr rfl, ih fun d among => ascii d (.tail _ among)⟩
  | dotted _ _ => exact absurd (ascii 0x307 (.tail _ List.mem_cons_self)) (by decide)
  | @other c piece t u _ _ _ present high _ _ =>
    obtain ⟨d, rest, rfl⟩ := List.exists_cons_of_ne_nil present
    have low := ascii d List.mem_cons_self
    have far := high d List.mem_cons_self
    omega

theorem eq_map (lowered : Lowered t u) (plain : ∀ c ∈ t, c < 0x80 ∨ c = kelvinSign) :
    u = t.map smallForm := by
  induction lowered with
  | nil => rfl
  | @ascii c t u here _ ih =>
    have other : c ≠ kelvinSign := by
      rintro rfl
      exact absurd here (by decide)
    rw [List.map_cons, smallForm, if_neg other, ih fun d among => plain d (.tail _ among)]
  | kelvin _ ih => rw [List.map_cons, ih fun d among => plain d (.tail _ among)]; rfl
  | dotted _ _ => exact absurd (plain 0x130 List.mem_cons_self) (by decide)
  | @other c piece t u high kelvin _ _ _ _ _ =>
    rcases plain c List.mem_cons_self with low | same
    · omega
    · exact absurd same kelvin

end Lowered

def ruleOf (folded : Text) : Option Text :=
  let bare := removeStart folded Record.toolPrefix
  if !bare.isEmpty && bare.all isNameCharacter then
    some (Text.replace '-'.toNat '_'.toNat bare)
  else none

theorem ruleOf_eq_some {folded r : Text} : ruleOf folded = some r ↔
    removeStart folded Record.toolPrefix ≠ [] ∧
      (∀ c ∈ removeStart folded Record.toolPrefix, isNameCharacter c = true) ∧
      r = Text.replace '-'.toNat '_'.toNat (removeStart folded Record.toolPrefix) := by
  simp only [ruleOf, Option.ite_none_right_eq_some, Bool.and_eq_true, Bool.not_eq_true',
    List.isEmpty_eq_false_iff, List.all_eq_true, Option.some.injEq, and_assoc, eq_comm (a := r)]

/-- What is typed is a name with white space around it and perhaps the tool in front. -/
def Spells (typed name : Text) : Prop :=
  ∃ before tool after, Blank before ∧ Blank after ∧
    (tool = [] ∨ tool.map small = Record.toolPrefix) ∧ typed = before ++ (tool ++ name) ++ after

/-- The name is written with code points of names, and it stands for the rule. -/
def Documented (typed r : Text) : Prop :=
  ∃ name, Spells typed name ∧ name ≠ [] ∧ (∀ c ∈ name, isNameCharacter c = true) ∧
    r = Text.replace '-'.toNat '_'.toNat (name.map small)

/-- The same with Kelvin signs in place of some letters. -/
def Accepted (typed r : Text) : Prop :=
  ∃ name, Spells typed name ∧ name ≠ [] ∧
    (∀ c ∈ name, isNameCharacter c = true ∨ c = kelvinSign) ∧
    r = Text.replace '-'.toNat '_'.toNat (name.map smallForm)

theorem isNameCharacter_iff (c : Nat) : isNameCharacter c = true ↔
    0x61 ≤ c ∧ c ≤ 0x7A ∨ 0x41 ≤ c ∧ c ≤ 0x5A ∨ 0x30 ≤ c ∧ c ≤ 0x39 ∨ c = 0x5F ∨ c = 0x2D := by
  simp only [isNameCharacter, Bool.or_eq_true, Bool.and_eq_true, decide_eq_true_eq, beq_iff_eq,
    or_assoc]
  rfl

theorem isBlank_of_isNameCharacter {c : Nat} (named : isNameCharacter c = true) :
    isBlank c = false := by
  rw [isNameCharacter_iff] at named
  simp only [isBlank, Bool.or_eq_false_iff, Bool.and_eq_false_iff, decide_eq_false_iff_not,
    beq_eq_false_iff_ne]
  omega

theorem isBlank_of_accepted {c : Nat} (named : isNameCharacter c = true ∨ c = kelvinSign) :
    isBlank c = false := by
  rcases named with ordinary | rfl
  · exact isBlank_of_isNameCharacter ordinary
  · decide

theorem isNameCharacter_smallForm (c : Nat) :
    isNameCharacter (smallForm c) = true ↔ isNameCharacter c = true ∨ c = kelvinSign := by
  rw [smallForm]
  split
  next kelvin => exact iff_of_true rfl (.inr kelvin)
  next other =>
    rw [or_iff_left other, isNameCharacter_iff, isNameCharacter_iff, small]
    split <;> omega

theorem tool_plain {tool : Text} (written : tool = [] ∨ tool.map small = Record.toolPrefix) :
    ∀ c ∈ tool, c < 0x80 ∧ isBlank c = false ∧ smallForm c = small c := by
  rcases written with rfl | written
  · exact nofun
  have parts : ∀ d ∈ Record.toolPrefix, d = 0x3A ∨ 0x61 ≤ d ∧ d ≤ 0x7A := by decide
  intro c among
  have inside : small c ∈ Record.toolPrefix := written ▸ List.mem_map_of_mem among
  have bounds := parts _ inside
  have low : c < 0x80 ∧ 0x3A ≤ c := by
    rw [small] at bounds
    split at bounds <;> omega
  refine ⟨low.1, ?_, if_neg ?_⟩
  · simp only [isBlank, Bool.or_eq_false_iff, Bool.and_eq_false_iff, decide_eq_false_iff_not,
      beq_eq_false_iff_ne]
    omega
  · rintro rfl
    exact absurd low.1 (by decide)

theorem strip_of_spells {typed name tool before after : Text} (front : Blank before)
    (back : Blank after) (written : tool = [] ∨ tool.map small = Record.toolPrefix)
    (free : ∀ c ∈ name, isBlank c = false) (cut : typed = before ++ (tool ++ name) ++ after) :
    typed.strip = tool ++ name := by
  have toolFree : ∀ c ∈ tool, isBlank c = false := fun c among => (tool_plain written c among).2.1
  rw [cut]
  exact strip_padded front (trimmed_of_free (List.forall_mem_append.mpr ⟨toolFree, free⟩)) back

theorem spells_of_strip {typed name tool : Text}
    (written : tool = [] ∨ tool.map small = Record.toolPrefix)
    (stripped : typed.strip = tool ++ name) : Spells typed name := by
  obtain ⟨before, after, front, back, -, cut⟩ := exists_padded typed
  rw [stripped] at cut
  exact ⟨before, tool, after, front, back, written, cut⟩

theorem removeStart_name {bare : Text} (named : ∀ c ∈ bare, isNameCharacter c = true) :
    removeStart bare Record.toolPrefix = bare := by
  rcases removeStart_cases bare Record.toolPrefix with ⟨rest, rfl, -⟩ | ⟨-, same⟩
  · exact absurd (named 0x3A (List.mem_append_left rest (by decide))) (by decide)
  · exact same

/-- A small form in ASCII is that of a typed tool and of what is typed behind it. -/
private theorem exists_typed {t folded : Text} (lowered : Lowered t folded)
    (named : ∀ c ∈ removeStart folded Record.toolPrefix, isNameCharacter c = true) :
    ∃ tool name, (tool = [] ∨ tool.map small = Record.toolPrefix) ∧ t = tool ++ name ∧
      removeStart folded Record.toolPrefix = name.map smallForm := by
  have ascii : ∀ d ∈ removeStart folded Record.toolPrefix, d < 0x80 := by
    intro d among
    have bounds := (isNameCharacter_iff d).mp (named d among)
    omega
  rcases removeStart_cases folded Record.toolPrefix with ⟨bare, cut, same⟩ | ⟨-, same⟩
  · rw [same] at ascii ⊢
    have tool : ∀ d ∈ Record.toolPrefix, d < 0x80 := by decide
    have whole := lowered.eq_map
      (lowered.plain (cut ▸ List.forall_mem_append.mpr ⟨tool, ascii⟩))
    obtain ⟨tool, name, rfl, written, rest⟩ := List.map_eq_append_iff.mp (whole.symm.trans cut)
    have letters : ∀ c ∈ tool, smallForm c = small c := by
      intro c among
      refine if_neg fun kelvin => ?_
      have inside : smallForm c ∈ Record.toolPrefix := written ▸ List.mem_map_of_mem among
      rw [kelvin] at inside
      exact absurd inside (by decide)
    rw [List.map_congr_left letters] at written
    exact ⟨tool, name, .inr written, rfl, rest.symm⟩
  · rw [same] at ascii ⊢
    exact ⟨[], t, .inl rfl, rfl, lowered.eq_map (lowered.plain ascii)⟩

/-- Whatever the small forms outside of ASCII are, the names accepted are those that are written
with code points of names and Kelvin signs. -/
theorem ruleOf_lowered {typed folded r : Text} (lowered : Lowered typed.strip folded) :
    ruleOf folded = some r ↔ Accepted typed r := by
  rw [ruleOf_eq_some]
  constructor
  · rintro ⟨present, named, rfl⟩
    obtain ⟨tool, name, written, stripped, same⟩ := exists_typed lowered named
    refine ⟨name, spells_of_strip written stripped, ?_, ?_, by rw [same]⟩
    · rintro rfl
      exact present same
    · intro c among
      rw [← isNameCharacter_smallForm]
      exact named _ (same ▸ List.mem_map_of_mem among)
  · rintro ⟨name, ⟨before, tool, after, front, back, written, cut⟩, present, named, rfl⟩
    have bare : ∀ c ∈ name.map smallForm, isNameCharacter c = true := by
      intro d among
      obtain ⟨c, inside, rfl⟩ := List.mem_map.mp among
      exact (isNameCharacter_smallForm c).mpr (named c inside)
    have free : ∀ c ∈ name, isBlank c = false := fun c among => isBlank_of_accepted (named c among)
    have ascii : ∀ c ∈ name, c < 0x80 ∨ c = kelvinSign := by
      intro c among
      refine (named c among).imp_left fun ordinary => ?_
      have bounds := (isNameCharacter_iff c).mp ordinary
      omega
    rw [strip_of_spells front back written free cut] at lowered
    have plainTool := tool_plain written
    have removed : removeStart folded Record.toolPrefix = name.map smallForm := by
      rcases written with rfl | written
      · rw [lowered.eq_map ascii]
        exact removeStart_name bare
      · have plain : ∀ c ∈ tool ++ name, c < 0x80 ∨ c = kelvinSign :=
          List.forall_mem_append.mpr ⟨fun c among => .inl (plainTool c among).1, ascii⟩
        have letters : tool.map smallForm = Record.toolPrefix := by
          rw [List.map_congr_left fun c among => (plainTool c among).2.2, written]
        rw [lowered.eq_map plain, List.map_append, letters, removeStart_append]
    rw [removed]
    exact ⟨by simpa using present, bare, rfl⟩

theorem toRule?_eq_some {typed r : Text} : toRule? typed = some r ↔ Accepted typed r :=
  ruleOf_lowered (lowered_foldCase typed.strip)

/-- A name whose small form has none but code points of names, but that holds a Kelvin sign. -/
def WithKelvin (typed : Text) : Prop :=
  ∃ name, Spells typed name ∧ (∀ c ∈ name, isNameCharacter c = true ∨ c = kelvinSign) ∧
    kelvinSign ∈ name

theorem documented_ascii {typed r : Text} (documented : Documented typed r) :
    ∀ c ∈ typed.strip, c < 0x80 := by
  obtain ⟨name, ⟨before, tool, after, front, back, written, cut⟩, -, named, -⟩ := documented
  have free : ∀ c ∈ name, isBlank c = false :=
    fun c among => isBlank_of_isNameCharacter (named c among)
  rw [strip_of_spells front back written free cut, List.forall_mem_append]
  refine ⟨fun c among => (tool_plain written c among).1, fun c among => ?_⟩
  have bounds := (isNameCharacter_iff c).mp (named c among)
  omega

theorem accepted_iff_documented {typed : Text} (without : ¬WithKelvin typed) (r : Text) :
    Accepted typed r ↔ Documented typed r := by
  constructor
  · rintro ⟨name, spells, present, named, rfl⟩
    have other : ∀ c ∈ name, c ≠ kelvinSign := by
      rintro c among rfl
      exact without ⟨name, spells, named, among⟩
    have same : name.map smallForm = name.map small :=
      List.map_congr_left fun c among => if_neg (other c among)
    exact ⟨name, spells, present, fun c among => (named c among).resolve_right (other c among),
      same ▸ rfl⟩
  · rintro ⟨name, spells, present, named, rfl⟩
    have other : ∀ c ∈ name, c ≠ kelvinSign := by
      rintro c among rfl
      exact absurd (named _ among) (by decide)
    have same : name.map smallForm = name.map small :=
      List.map_congr_left fun c among => if_neg (other c among)
    exact ⟨name, spells, present, fun c among => .inl (named c among), same ▸ rfl⟩

/-- The names accepted are those written with letters and digits of ASCII, low lines and hyphens,
and with Kelvin signs for some letters; the latter are accepted though they are no such names. The
small forms of other letters do not matter. Any other name is refused as invalid. -/
theorem names_read_iff (typed : Text) :
    (∀ r, toRule? typed = some r ↔ Accepted typed r) ∧
      (∀ folded, Lowered typed.strip folded → ruleOf folded = toRule? typed) ∧
      ((∀ r, toRule? typed = some r ↔ Documented typed r) ↔ ¬WithKelvin typed) ∧
      (toRule? typed = none → ∀ (launch : Launcher) (w : Workspace),
        w.resolveLint launch typed = .error (.reported (.invalidLint typed))) := by
  refine ⟨fun r => toRule?_eq_some, fun folded lowered => ?_, ?_, fun refused launch w => ?_⟩
  · refine Option.ext fun r => ?_
    rw [ruleOf_lowered lowered, toRule?_eq_some]
  · constructor
    · rintro agrees ⟨name, spells, named, among⟩
      have accepted : Accepted typed (Text.replace '-'.toNat '_'.toNat (name.map smallForm)) :=
        ⟨name, spells, List.ne_nil_of_mem among, named, rfl⟩
      have ascii := documented_ascii ((agrees _).mp (toRule?_eq_some.mpr accepted))
      obtain ⟨before, tool, after, front, back, written, cut⟩ := spells
      have free : ∀ c ∈ name, isBlank c = false :=
        fun c inside => isBlank_of_accepted (named c inside)
      rw [strip_of_spells front back written free cut] at ascii
      exact absurd (ascii kelvinSign (List.mem_append_right tool among)) (by decide)
    · intro without r
      rw [toRule?_eq_some, accepted_iff_documented without]
  · rw [Workspace.resolveLint, refused]

/-- The Kelvin sign alone is accepted as the name of a lint. -/
theorem kelvin_sign_accepted :
    toRule? [kelvinSign] = some "k" ∧ ¬∃ r, Documented [kelvinSign] r := by
  refine ⟨by decide, ?_⟩
  rintro ⟨r, documented⟩
  exact absurd (documented_ascii documented kelvinSign (by decide)) (by decide)

end LintName
end LintCorpus
