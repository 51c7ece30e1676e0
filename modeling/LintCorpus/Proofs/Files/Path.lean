import LintCorpus.Files.Tree
import LintCorpus.Proofs.Text.Encodable
import Mathlib.Data.List.Basic

/-!
Paths as the system sees them. A path has a form for the system exactly if every code point of its
components has one, and a name put behind a path is its last component.
-/
namespace LintCorpus

namespace Text

theorem splitAt_separator (separator : Nat) (t : Text) :
    splitAt separator (separator :: t) = [] :: splitAt separator t := by
  simp only [splitAt, List.foldr_cons, if_true]

theorem splitAt_other (separator : Nat) (t : Text) (c : Nat) (other : c ≠ separator) :
    ∃ piece pieces, splitAt separator t = piece :: pieces ∧
      splitAt separator (c :: t) = (c :: piece) :: pieces := by
  simp only [splitAt, List.foldr_cons, if_neg other]
  exact ⟨_, _, rfl, rfl⟩

theorem splitAt_of_notMem (separator : Nat) (t : Text) (absent : separator ∉ t) :
    splitAt separator t = [t] := by
  induction t with
  | nil => rfl
  | cons c rest ih =>
    rw [List.mem_cons, not_or] at absent
    obtain ⟨piece, pieces, split, longer⟩ := splitAt_other separator rest c (Ne.symm absent.1)
    rw [ih absent.2] at split
    cases split
    exact longer

theorem splitAt_append (separator : Nat) (front back : Text) (absent : separator ∉ front) :
    splitAt separator (front ++ separator :: back) = front :: splitAt separator back := by
  induction front with
  | nil => exact splitAt_separator separator back
  | cons c rest ih =>
    rw [List.mem_cons, not_or] at absent
    obtain ⟨piece, pieces, split, longer⟩ :=
      splitAt_other separator (rest ++ separator :: back) c (Ne.symm absent.1)
    rw [ih absent.2] at split
    cases split
    exact longer

theorem splitAt_join (separator : Nat) (pieces : List Text) (present : pieces ≠ [])
    (absent : ∀ piece ∈ pieces, separator ∉ piece) :
    splitAt separator (join [separator] pieces) = pieces := by
  induction pieces with
  | nil => exact absurd rfl present
  | cons first rest ih =>
    obtain ⟨here, others⟩ := List.forall_mem_cons.mp absent
    by_cases more : rest = []
    · rw [more, join_singleton, splitAt_of_notMem separator first here]
    · rw [join_cons _ _ _ more, List.append_assoc, List.singleton_append,
        splitAt_append separator first _ here, ih more others]

theorem mem_splitAt (separator : Nat) (t : Text) (d : Nat) :
    (∃ piece ∈ splitAt separator t, d ∈ piece) ↔ d ∈ t ∧ d ≠ separator := by
  induction t with
  | nil => simp [splitAt]
  | cons c rest ih =>
    rw [List.mem_cons]
    rcases eq_or_ne c separator with rfl | other
    · rw [splitAt_separator, List.exists_mem_cons_iff, ih]
      constructor
      · rintro (⟨⟨⟩⟩ | ⟨member, differs⟩)
        exact ⟨.inr member, differs⟩
      · rintro ⟨rfl | member, differs⟩
        · exact absurd rfl differs
        · exact .inr ⟨member, differs⟩
    · obtain ⟨piece, pieces, split, longer⟩ := splitAt_other separator rest c other
      rw [split, List.exists_mem_cons_iff] at ih
      rw [longer, List.exists_mem_cons_iff, List.mem_cons, or_assoc, ih]
      constructor
      · rintro (rfl | ⟨member, differs⟩)
        · exact ⟨.inl rfl, other⟩
        · exact ⟨.inr member, differs⟩
      · rintro ⟨rfl | member, differs⟩
        · exact .inl rfl
        · exact .inr ⟨member, differs⟩

theorem mem_join_of_mem {separator part : Text} {parts : List Text} {c : Nat}
    (among : part ∈ parts) (inside : c ∈ part) : c ∈ join separator parts := by
  induction parts with
  | nil => cases among
  | cons first rest ih =>
    by_cases more : rest = []
    · subst more
      obtain rfl := List.mem_singleton.mp among
      rwa [join_singleton]
    · rw [join_cons _ _ _ more, List.append_assoc, List.mem_append]
      rcases List.mem_cons.mp among with rfl | later
      · exact .inl inside
      · exact .inr (List.mem_append.mpr (.inr (ih later)))

end Text

namespace SystemText

/-- A code point that has a form for the system in which nothing ends early. -/
def Fits (c : Nat) : Prop := (isEscape c || !Text.isSurrogate c) = true ∧ 0 ∉ encodeOne c

instance (c : Nat) : Decidable (Fits c) := by unfold Fits; infer_instance

/-- Of the characters, only the null character has no form for the system. -/
theorem fits_iff (c : Nat) (valid : c.isValidChar) : Fits c ↔ c ≠ 0 := by
  have bounds : c < 0xD800 ∨ 0xDFFF < c ∧ c < 0x110000 := valid
  have plain : isEscape c = false := by
    simp only [isEscape, Bool.and_eq_false_iff, decide_eq_false_iff_not]
    omega
  have single : Text.isSurrogate c = false := by
    simp only [Text.isSurrogate, Bool.and_eq_false_iff, decide_eq_false_iff_not]
    omega
  have byte : ∀ n, n < 256 → (0 = UInt8.ofNat n ↔ n = 0) := by
    intro n small
    rw [← UInt8.toNat_inj, UInt8.toNat_ofNat_of_lt' small]
    exact eq_comm
  have ends : 0 ∈ Utf8.encodeOne c ↔ c = 0 := by
    unfold Utf8.encodeOne
    dsimp only
    split_ifs <;> simp only [List.mem_cons, List.not_mem_nil, or_false] <;>
      repeat rw [byte _ (by omega)]
    all_goals omega
  rw [Fits, encodeOne, plain, single, if_neg (by decide), ends]
  exact and_iff_right rfl

theorem fits_of_encodes {c : Nat} (code : c < 0x110000) (ends : c ≠ 0)
    (encodes : (isEscape c || !Text.isSurrogate c) = true) : Fits c := by
  rw [Bool.or_eq_true] at encodes
  rcases encodes with escape | single
  · refine ⟨by rw [escape, Bool.true_or], ?_⟩
    rw [encodeOne, if_pos escape, List.mem_singleton, ← UInt8.toNat_inj]
    simp only [isEscape, Bool.and_eq_true, decide_eq_true_eq] at escape
    rw [UInt8.toNat_ofNat_of_lt' (show c - 0xDC00 < 256 by omega)]
    show 0 ≠ c - 0xDC00
    omega
  · refine (fits_iff c ?_).mpr ends
    simp only [Text.isSurrogate, Bool.not_eq_true', Bool.and_eq_false_iff,
      decide_eq_false_iff_not] at single
    show c < 0xD800 ∨ 0xDFFF < c ∧ c < 0x110000
    omega

theorem firstFault?_eq_none (t : Text) :
    firstFault? t = none ↔ ∀ c ∈ t, (isEscape c || !Text.isSurrogate c) = true := by
  rw [← Text.isEmpty_drop_takeWhile, firstFault?]
  simp

end SystemText

namespace Path

theorem parts_ofText (t : Text) (component : Component t) : (ofText t).parts = [t] := by
  show (Text.splitAt '/'.toNat t).filter (fun part => decide (Component part)) = [t]
  rw [Text.splitAt_of_notMem _ t component.2.2]
  exact List.filter_eq_self.mpr (by simpa using component)

theorem anchor_ofText (t : Text) (component : Component t) : (ofText t).anchor = .here := by
  have relative : t.startsWith "/" = false ∧ t.startsWith "//" = false := by
    cases t with
    | nil => exact ⟨rfl, rfl⟩
    | cons c rest =>
      have first : ('/'.toNat == c) = false := by
        rw [beq_eq_false_iff_ne]
        rintro rfl
        exact component.2.2 List.mem_cons_self
      exact ⟨congrArg (· && _) first, congrArg (· && _) first⟩
  rw [ofText, relative.1, relative.2]
  rfl

/-- Apart from dots and slashes, the components of a path hold the code points of its text. -/
theorem mem_parts_ofText (t : Text) (c : Nat) (slash : c ≠ '/'.toNat) (dot : c ≠ '.'.toNat) :
    (∃ part ∈ (ofText t).parts, c ∈ part) ↔ c ∈ t := by
  have pieces := Text.mem_splitAt '/'.toNat t
  rw [← and_iff_left (a := c ∈ t) slash, ← pieces c]
  constructor
  · rintro ⟨part, member, inside⟩
    exact ⟨part, (List.mem_filter.mp member).1, inside⟩
  · rintro ⟨part, member, inside⟩
    refine ⟨part, List.mem_filter.mpr ⟨member, decide_eq_true ⟨?_, ?_, ?_⟩⟩, inside⟩
    · rintro rfl
      cases inside
    · rintro rfl
      exact dot (List.mem_singleton.mp inside)
    · intro separated
      exact ((pieces _).mp ⟨part, member, separated⟩).2 rfl

variable (p : Path) {name : Text}

/-- The components of a path come back from its text, whatever slashes stand in front of it. -/
private theorem filter_splitAt_join :
    (Text.splitAt '/'.toNat (Text.join "/" p.parts)).filter (fun part => decide (Component part)) =
      p.parts := by
  by_cases present : p.parts = []
  · rw [present]
    rfl
  · have separator : ("/" : Text) = ['/'.toNat] := rfl
    rw [separator, Text.splitAt_join _ _ present fun part member => (p.clean part member).2.2]
    exact List.filter_eq_self.mpr fun part member => decide_eq_true (p.clean part member)

private theorem head_join : (Text.join "/" p.parts).head? ≠ some '/'.toNat := by
  cases parts : p.parts with
  | nil => exact nofun
  | cons first rest =>
    have component := p.clean first (by rw [parts]; exact List.mem_cons_self)
    obtain ⟨c, others, shape⟩ := List.exists_cons_of_ne_nil component.1
    obtain ⟨back, joined⟩ := Text.join_head "/" first rest
    rw [joined, shape]
    intro begins
    cases begins
    exact component.2.2 (by rw [shape]; exact List.mem_cons_self)

private theorem startsWith_slash {t : Text} (head : t.head? ≠ some '/'.toNat) (more : Text) :
    t.startsWith ('/'.toNat :: more) = false := by
  cases t with
  | nil => rfl
  | cons c rest =>
    have first : ('/'.toNat == c) = false := by
      rw [beq_eq_false_iff_ne]
      rintro rfl
      exact head rfl
    exact congrArg (· && _) first

theorem ofText_toText : ofText p.toText = p := by
  have same (q : Path) (anchor : q.anchor = p.anchor) (parts : q.parts = p.parts) : q = p := by
    cases q
    cases p
    cases anchor
    cases parts
    rfl
  have components (t : Text) : (ofText t).parts =
      (Text.splitAt '/'.toNat t).filter fun part => decide (Component part) := rfl
  have joined := filter_splitAt_join p
  have relative := startsWith_slash (head_join p)
  cases anchor : p.anchor with
  | here =>
    by_cases empty : p.parts = []
    · rw [toText, anchor, empty]
      exact same _ anchor.symm empty.symm
    · have text : p.toText = Text.join "/" p.parts := by
        rw [toText, anchor]
        exact if_neg (by simpa using empty)
      have one : Text.startsWith (Text.join "/" p.parts) "/" = false := relative []
      have two : Text.startsWith (Text.join "/" p.parts) "//" = false := relative ['/'.toNat]
      rw [text]
      exact same _ (by rw [anchor, ofText, one, two]; rfl) joined
  | root =>
    have text : p.toText = '/'.toNat :: Text.join "/" p.parts := by
      rw [toText, anchor]
      rfl
    have two : Text.startsWith ('/'.toNat :: Text.join "/" p.parts) "//" = false := relative []
    have one : Text.startsWith ('/'.toNat :: Text.join "/" p.parts) "/" = true := rfl
    rw [text]
    apply same
    · rw [anchor, ofText, one, two]
      rfl
    · rw [components, Text.splitAt_separator]
      exact joined
  | doubleRoot =>
    have text : p.toText = '/'.toNat :: '/'.toNat :: Text.join "/" p.parts := by
      rw [toText, anchor]
      rfl
    have three : Text.startsWith ('/'.toNat :: '/'.toNat :: Text.join "/" p.parts) "///" = false :=
      relative []
    have two : Text.startsWith ('/'.toNat :: '/'.toNat :: Text.join "/" p.parts) "//" = true := rfl
    rw [text]
    apply same
    · rw [anchor, ofText, two, three]
      rfl
    · rw [components, Text.splitAt_separator, Text.splitAt_separator]
      exact joined

theorem child_eq_join (component : Component name) :
    (p.child name).anchor = p.anchor ∧ (p.child name).parts = p.parts ++ [name] := by
  have here : (ofText name).isAbsolute = false := by
    rw [isAbsolute, anchor_ofText name component]
    rfl
  rw [child, join, here]
  exact ⟨rfl, congrArg (p.parts ++ ·) (parts_ofText name component)⟩

theorem mem_toText (c : Nat) (slash : c ≠ '/'.toNat) (dot : c ≠ '.'.toNat) :
    c ∈ p.toText ↔ ∃ part ∈ p.parts, c ∈ part := by
  have joined : c ∈ Text.join "/" p.parts ↔ ∃ part ∈ p.parts, c ∈ part := by
    constructor
    · intro member
      rcases Text.mem_join member with between | inside
      · exact absurd (List.mem_singleton.mp between) slash
      · exact inside
    · rintro ⟨part, among, inside⟩
      exact Text.mem_join_of_mem among inside
  rw [← joined, toText]
  cases p.anchor with
  | here =>
    by_cases alone : p.parts = []
    · simpa [alone, Text.join, Text.ofString] using dot
    · simp [alone]
  | root => simpa [Text.ofString] using fun same => absurd same slash
  | doubleRoot => simpa [Text.ofString] using fun same => absurd same slash

end Path

namespace FileTree
open SystemText

private theorem forall_fits_congr {held kept : Nat → Prop}
    (same : ∀ c, c ≠ '/'.toNat → c ≠ '.'.toNat → (held c ↔ kept c)) :
    (∀ c, held c → Fits c) ↔ ∀ c, kept c → Fits c := by
  -- The text of a path and its components differ in slashes and dots, and both of these fit.
  have separators : Fits '/'.toNat ∧ Fits '.'.toNat := by decide
  refine forall_congr' fun c => ?_
  by_cases slash : c = '/'.toNat
  · simp only [slash, separators.1, implies_true]
  by_cases dot : c = '.'.toNat
  · simp only [dot, separators.2, implies_true]
  rw [same c slash dot]

theorem checkPath_cases (p : Path) :
    checkPath p = .ok () ∨ checkPath p = .error .nullCharacter ∨
      ∃ fault, checkPath p = .error (.unencodable fault) := by
  unfold checkPath
  split
  · exact .inr (.inr ⟨_, rfl⟩)
  · split
    · exact .inr (.inl rfl)
    · exact .inl rfl

theorem checkPath_eq_ok (p : Path) :
    checkPath p = .ok () ↔ ∀ c, (∃ part ∈ p.parts, c ∈ part) → Fits c := by
  have encoded : checkPath p = .ok () ↔
      firstFault? p.toText = none ∧ 0 ∉ SystemText.bytes p.toText := by
    rw [checkPath, encode]
    rcases firstFault? p.toText with _ | fault
    · by_cases ends : 0 ∈ SystemText.bytes p.toText <;> simp [ends]
    · simp
  have fits : checkPath p = .ok () ↔ ∀ c ∈ p.toText, Fits c := by
    rw [encoded, firstFault?_eq_none, SystemText.bytes, List.mem_flatMap]
    constructor
    · rintro ⟨held, lasting⟩ c member
      exact ⟨held c member, fun ends => lasting ⟨c, member, ends⟩⟩
    · intro all
      exact ⟨fun c member => (all c member).1, fun ⟨c, member, ends⟩ => (all c member).2 ends⟩
  rw [fits]
  exact forall_fits_congr p.mem_toText

theorem checkPath_ofText (t : Text) : checkPath (Path.ofText t) = .ok () ↔ ∀ c ∈ t, Fits c :=
  (checkPath_eq_ok _).trans (forall_fits_congr (Path.mem_parts_ofText t))

private theorem mem_parts_child (p : Path) (t : Text) (c : Nat) (slash : c ≠ '/'.toNat)
    (dot : c ≠ '.'.toNat) (inside : ∃ part ∈ (p.child t).parts, c ∈ part) :
    (∃ part ∈ p.parts, c ∈ part) ∨ c ∈ t := by
  rw [← Path.mem_parts_ofText t c slash dot]
  rw [Path.child, Path.join] at inside
  split at inside
  · exact .inr inside
  · obtain ⟨part, among, member⟩ := inside
    rcases List.mem_append.mp among with front | back
    · exact .inl ⟨part, front, member⟩
    · exact .inr ⟨part, back, member⟩

theorem checkPath_child (p : Path) (t : Text) (whole : checkPath p = .ok ()) :
    checkPath (p.child t) = .ok () ↔ ∀ c ∈ t, Fits c := by
  rw [checkPath_eq_ok] at whole
  have behind := forall_fits_congr (Path.mem_parts_ofText t)
  rw [checkPath_eq_ok, ← behind, Path.child, Path.join]
  split
  · rfl
  · constructor
    · rintro all c ⟨part, among, inside⟩
      exact all c ⟨part, List.mem_append.mpr (.inr among), inside⟩
    · rintro all c ⟨part, among, inside⟩
      rcases List.mem_append.mp among with front | back
      · exact whole c ⟨part, front, inside⟩
      · exact all c ⟨part, back, inside⟩

private theorem exists_of_unencodable (p : Path) (fault : Utf8.Unencodable)
    (refused : checkPath p = .error (.unencodable fault)) :
    ∃ c ∈ p.toText, (isEscape c || !Text.isSurrogate c) = false := by
  have found : firstFault? p.toText ≠ none := by
    intro none
    rw [checkPath, encode, none] at refused
    dsimp only at refused
    split at refused
    · cases refused
    · cases refused
  rw [Ne, firstFault?_eq_none] at found
  push Not at found
  obtain ⟨c, member, lone⟩ := found
  exact ⟨c, member, Bool.eq_false_iff.mpr lone⟩

/-- Of a text of characters, only a null character keeps the system from being asked. -/
theorem checkPath_child_valid (p : Path) (t : Text) (whole : checkPath p = .ok ())
    (valid : ∀ c ∈ t, c.isValidChar) :
    checkPath (p.child t) = if 0 ∈ t then .error .nullCharacter else .ok () := by
  split
  next null =>
    have unfit : checkPath (p.child t) ≠ .ok () := by
      rw [Ne, checkPath_child p t whole]
      intro all
      exact absurd (all 0 null) (by decide)
    rcases checkPath_cases (p.child t) with ok | ended | ⟨fault, unencodable⟩
    · exact absurd ok unfit
    · exact ended
    · obtain ⟨c, member, lone⟩ := exists_of_unencodable _ fault unencodable
      have differs : ∀ d, (isEscape d || !Text.isSurrogate d) = true → c ≠ d := by
        rintro d encoded rfl
        rw [encoded] at lone
        cases lone
      have slash : c ≠ '/'.toNat := differs _ (by decide)
      have dot : c ≠ '.'.toNat := differs _ (by decide)
      have inside := ((p.child t).mem_toText c slash dot).mp member
      have fits : Fits c := by
        rcases mem_parts_child p t c slash dot inside with before | behind
        · exact (checkPath_eq_ok p).mp whole c before
        · exact (fits_iff c (valid c behind)).mpr (differs 0 (by decide))
      exact absurd rfl (differs c fits.1)
  next plain =>
    rw [checkPath_child p t whole]
    intro c member
    rw [fits_iff c (valid c member)]
    rintro rfl
    exact plain member

end FileTree
end LintCorpus
