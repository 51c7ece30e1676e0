import LintCorpus.Proofs.Config.Options
import LintCorpus.Proofs.Text.Blank
import LintCorpus.Proofs.Text.Lines

/-!
Files that name the packages expected to be clean line by line. A line gives the name that stands on
it between white space and before any comment, and a file gives the names that its lines give.
-/
namespace LintCorpus.CleanSet

open Text

/-- A line gives a name if it is that name with white space around it and perhaps a comment behind.
A line of white space or with a comment alone gives the empty one. -/
def Gives (line name : Text) : Prop :=
  ∃ before after comment, Blank before ∧ Trimmed name ∧ Blank after ∧
    (∀ c ∈ before ++ name ++ after, c ≠ '#'.toNat) ∧
    (comment = [] ∨ comment.head? = some '#'.toNat) ∧ line = before ++ name ++ after ++ comment

def Simple (name : Text) : Prop :=
  ∀ c ∈ name, isBlank c = false ∧ c ≠ '/'.toNat ∧ c ≠ '\\'.toNat

theorem lineName_eq_iff {line name : Text} : lineName line = name ↔ Gives line name := by
  constructor
  · rintro rfl
    obtain ⟨before, after, front, back, trimmed, cut⟩ :=
      exists_padded (line.takeWhile (· != '#'.toNat))
    refine ⟨before, after, line.dropWhile (· != '#'.toNat), front, trimmed, back, ?_, ?_, ?_⟩
    · intro c among
      rw [lineName, ← cut] at among
      simpa using List.all_eq_true.mp List.all_takeWhile c among
    · have stopped := List.head?_dropWhile_not (· != '#'.toNat) line
      cases comment : line.dropWhile (· != '#'.toNat) with
      | nil => exact .inl rfl
      | cons c rest =>
        rw [comment] at stopped
        exact .inr (by simpa using stopped)
    · rw [lineName, ← cut, List.takeWhile_append_dropWhile]
  · rintro ⟨before, after, comment, front, trimmed, back, free, hash, rfl⟩
    have kept : ∀ c ∈ before ++ name ++ after, (c != '#'.toNat) = true := by simpa using free
    have cut : comment.takeWhile (· != '#'.toNat) = [] := by
      cases comment with
      | nil => rfl
      | cons c rest => exact List.takeWhile_cons_of_neg (by simpa using hash)
    rw [lineName, List.takeWhile_append_of_pos kept, cut, List.append_nil,
      strip_padded front trimmed back]

theorem Gives.unique {line name other : Text} (one : Gives line name) (another : Gives line other) :
    name = other :=
  (lineName_eq_iff.mpr one).symm.trans (lineName_eq_iff.mpr another)

/-- A name that a line gives holds no hash, so it can name a package if it is simple. -/
theorem isPackageName_iff {line name : Text} (gives : Gives line name) :
    isPackageName name = true ↔ name ≠ [] ∧ Simple name := by
  obtain ⟨before, after, comment, -, -, -, free, -, -⟩ := gives
  have unmarked : ∀ c ∈ name, c ≠ '#'.toNat := fun c among =>
    free c (List.mem_append_left _ (List.mem_append_right _ among))
  simp only [isPackageName, Bool.and_eq_true, Bool.not_eq_true', List.isEmpty_eq_false_iff,
    List.all_eq_true, bne_iff_ne, and_assoc]
  refine and_congr_right fun _ => forall₂_congr fun c among => ?_
  rw [and_iff_left (unmarked c among)]

theorem mem_lineNames {content name : Text} :
    name ∈ lineNames content ↔ name ≠ [] ∧ ∃ line ∈ content.lines, Gives line name := by
  simp only [lineNames, List.mem_filter, List.mem_map, lineName_eq_iff, Bool.not_eq_true',
    List.isEmpty_eq_false_iff, and_comm]

def WellFormed (content : Text) : Prop :=
  ∀ line ∈ content.lines, ∀ name, Gives line name → Simple name

theorem wellFormed_iff {content : Text} :
    WellFormed content ↔ ∀ name ∈ lineNames content, isPackageName name = true := by
  constructor
  · intro formed name among
    obtain ⟨present, line, inside, gives⟩ := mem_lineNames.mp among
    exact (isPackageName_iff gives).mpr ⟨present, formed line inside name gives⟩
  · intro named line inside name gives
    by_cases present : name = []
    · subst present
      exact List.forall_mem_nil _
    · have valid := named name (mem_lineNames.mpr ⟨present, line, inside, gives⟩)
      exact ((isPackageName_iff gives).mp valid).2

theorem packageNames_eq_error {names : List Text} {v : Value}
    (failed : packageNames (names.map .text) = .error v) :
    ∃ name ∈ names, isPackageName name = false ∧ v = .text name := by
  induction names with
  | nil => cases failed
  | cons name rest ih =>
    cases named : isPackageName name with
    | false =>
      refine ⟨name, List.mem_cons_self, named, ?_⟩
      simp only [packageNames, List.map_cons, List.mapM_cons, named, Bool.false_eq_true,
        if_false] at failed
      exact (Except.error.inj failed).symm
    | true =>
      have later : packageNames (rest.map .text) = .error v := by
        simp only [packageNames, List.map_cons, List.mapM_cons, named, if_true] at failed
        rw [packageNames]
        rcases others : List.mapM _ (rest.map Value.text) with fault | names
        · rw [others] at failed
          exact failed
        · rw [others] at failed
          cases failed
      obtain ⟨bad, among, refused⟩ := ih later
      exact ⟨bad, .tail _ among, refused⟩

variable {t : FileTree} {p : Path} {bytes : Bytes} {content : Text}

theorem load_eq (held : t.read p = .ok bytes) (decoded : Utf8.decodeStrict bytes = .ok content)
    (plain : p.suffix ≠ tomlSuffix) : load t p =
      match packageNames ((lineNames content).map .text) with
      | .ok names => .ok (sortedSet names)
      | .error v => .error (.reported (.badName p (badPackageName v))) := by
  have read : t.readText p = .ok content.normalizeNewlines := by
    rw [FileTree.readText, held]
    simp only [bind, Except.bind, decoded]
    rfl
  have lines : lineNames content.normalizeNewlines = lineNames content := by
    rw [lineNames, lines_normalizeNewlines, lineNames]
  have given : values p content.normalizeNewlines = .ok ((lineNames content).map .text) := by
    rw [values, if_neg plain, lines]
  rw [load, read]
  simp only [Except.mapError, bind, Except.bind, ofText, given]
  cases packageNames ((lineNames content).map .text) <;> rfl

theorem load_of_wellFormed (held : t.read p = .ok bytes)
    (decoded : Utf8.decodeStrict bytes = .ok content) (plain : p.suffix ≠ tomlSuffix)
    (formed : WellFormed content) : load t p = .ok (sortedSet (lineNames content)) := by
  rw [load_eq held decoded plain, packageNames_eq_ok.mpr ⟨rfl, wellFormed_iff.mp formed⟩]

theorem load_of_not_wellFormed (held : t.read p = .ok bytes)
    (decoded : Utf8.decodeStrict bytes = .ok content) (plain : p.suffix ≠ tomlSuffix)
    (malformed : ¬WellFormed content) : ∃ line ∈ content.lines, ∃ name, Gives line name ∧
      ¬Simple name ∧
      load t p = .error (.reported (.badName p (badPackageName (.text name)))) := by
  rw [load_eq held decoded plain]
  cases read : packageNames ((lineNames content).map .text) with
  | ok names =>
    obtain ⟨same, valid⟩ := packageNames_eq_ok.mp read
    obtain rfl := List.map_injective_iff.mpr (fun _ _ => Value.text.inj) same
    exact absurd (wellFormed_iff.mpr valid) malformed
  | error v =>
    obtain ⟨name, among, refused, rfl⟩ := packageNames_eq_error read
    obtain ⟨present, line, inside, gives⟩ := mem_lineNames.mp among
    refine ⟨line, inside, name, gives, fun simple => ?_, rfl⟩
    rw [(isPackageName_iff gives).mpr ⟨present, simple⟩] at refused
    cases refused

/-- Names from a file and names of a policy pass the policy's check together, in whatever order. -/
theorem assign_union {t : FileTree} {p : Path} {names union : List Text} {v : Value}
    {policy : PolicyConfig} (loaded : load t p = .ok names)
    (accepted : PolicyConfig.check v = .valid policy)
    (joined : ∀ n, n ∈ union ↔ n ∈ names ∨ n ∈ policy.expectedClean) :
    policy.assign "expected_clean" (.ofTexts union) =
      .ok { policy with expectedClean := sortedSet union } := by
  obtain ⟨m, rfl⟩ : ∃ m, v = .object m := by
    cases v with
    | object m => exact ⟨m, rfl⟩
    | _ => cases accepted
  have clean := (PolicyConfig.readFrom_of_check accepted).cleanNames
  have valid : ∀ n ∈ union, isPackageName n = true := fun n inside =>
    ((joined n).mp inside).elim ((cleanNames_of_load loaded).valid n) (clean.valid n)
  show assignMember "expected_clean" expectedCleanCheck _ _ = _
  rw [assignMember_eq_ok]
  exact ⟨sortedSet union, expectedCleanCheck_ofTexts valid, rfl⟩

theorem load_of_gives (held : t.read p = .ok bytes)
    (decoded : Utf8.decodeStrict bytes = .ok content) (plain : p.suffix ≠ tomlSuffix)
    {S : List Text} (valid : ∀ name ∈ S, isPackageName name = true)
    (sound : ∀ line ∈ content.lines, Gives line [] ∨ ∃ name ∈ S, Gives line name)
    (complete : ∀ name ∈ S, ∃ line ∈ content.lines, Gives line name) :
    load t p = .ok (sortedSet S) := by
  have formed : WellFormed content := by
    intro line inside name gives
    rcases sound line inside with nothing | ⟨other, among, given⟩
    · rw [gives.unique nothing]
      exact List.forall_mem_nil _
    · rw [gives.unique given]
      exact ((isPackageName_iff given).mp (valid other among)).2
  rw [load_of_wellFormed held decoded plain formed]
  refine congrArg Except.ok (sortedSet_congr fun name => ?_)
  rw [mem_lineNames]
  constructor
  · rintro ⟨present, line, inside, gives⟩
    rcases sound line inside with nothing | ⟨other, among, given⟩
    · exact absurd (gives.unique nothing) present
    · rwa [gives.unique given]
  · intro among
    obtain ⟨line, inside, gives⟩ := complete name among
    exact ⟨((isPackageName_iff gives).mp (valid name among)).1, line, inside, gives⟩

/-- A plain file of text is loaded exactly if every line gives a simple name or none. The names are
those that its lines give, in order and each once; otherwise one that is not simple is reported. So
a file that gives nothing but some valid names, and each of them on some line, is loaded as these,
and with the names of a policy they pass the policy's check. -/
theorem load_plain (held : t.read p = .ok bytes) (decoded : Utf8.decodeStrict bytes = .ok content)
    (plain : p.suffix ≠ tomlSuffix) :
    ((∃ names, load t p = .ok names) ↔ WellFormed content) ∧
      (∀ names, load t p = .ok names → names.Pairwise Text.Before ∧
        ∀ name, name ∈ names ↔ name ≠ [] ∧ ∃ line ∈ content.lines, Gives line name) ∧
      (¬WellFormed content → ∃ line ∈ content.lines, ∃ name, Gives line name ∧ ¬Simple name ∧
        load t p = .error (.reported (.badName p (badPackageName (.text name))))) ∧
      (∀ S : List Text, (∀ name ∈ S, isPackageName name = true) →
        (∀ line ∈ content.lines, Gives line [] ∨ ∃ name ∈ S, Gives line name) →
        (∀ name ∈ S, ∃ line ∈ content.lines, Gives line name) → load t p = .ok (sortedSet S)) ∧
      ∀ (file : Path) (names union : List Text) (v : Value) (policy : PolicyConfig),
        load t file = .ok names → PolicyConfig.check v = .valid policy →
        (∀ n, n ∈ union ↔ n ∈ names ∨ n ∈ policy.expectedClean) →
        policy.assign "expected_clean" (.ofTexts union) =
          .ok { policy with expectedClean := sortedSet union } := by
  have formed {names : List Text} (loaded : load t p = .ok names) : WellFormed content := by
    by_contra malformed
    obtain ⟨_, _, _, _, _, failed⟩ := load_of_not_wellFormed held decoded plain malformed
    cases loaded.symm.trans failed
  refine ⟨⟨fun ⟨_, loaded⟩ => formed loaded,
    fun formed => ⟨_, load_of_wellFormed held decoded plain formed⟩⟩, fun names loaded => ?_,
    load_of_not_wellFormed held decoded plain, fun S => load_of_gives held decoded plain,
    fun file names union v policy => assign_union⟩
  have same := load_of_wellFormed held decoded plain (formed loaded)
  obtain rfl := Except.ok.inj (loaded.symm.trans same)
  refine ⟨sortedSet_ascends _, fun name => ?_⟩
  rw [mem_sortedSet, mem_lineNames]

/-- A comment, a name between blanks twice, and a carriage return at the end of a line. -/
theorem load_plain_comments :
    let file : Text := "# names\n\n  b\t# later\r\na\nb\n"
    let t : FileTree :=
      { nodes := [(["clean"], ⟨.file (Utf8.encode file), 0⟩)], workingDirectory := Path.ofText "/" }
    ∃ names, load t (Path.ofText "clean") = .ok names ∧ ∀ name, name ∈ names ↔ name ∈ [("b" : Text), "a"] := by
  intro file t
  have held : t.read (Path.ofText "clean") = .ok (Utf8.encode file) :=
    toOption_eq_some.mp (by decide +kernel)
  have decoded : Utf8.decodeStrict (Utf8.encode file) = .ok file :=
    toOption_eq_some.mp (by decide +kernel)
  obtain ⟨-, -, -, loads, -⟩ := load_plain held decoded (by decide +kernel)
  simp only [← lineName_eq_iff] at loads
  have loaded := loads ["b", "a"] (by decide +kernel) (by decide +kernel) (by decide +kernel)
  exact ⟨_, loaded, fun name => mem_sortedSet⟩

end LintCorpus.CleanSet
