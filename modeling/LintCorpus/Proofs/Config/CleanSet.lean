import LintCorpus.Config.CleanSet
import LintCorpus.Proofs.Failure
import LintCorpus.Proofs.Sorting

/-!
The packages that are expected to be clean. Wherever they come from, their names are valid, sorted
and listed once, and such names pass the check they came from.
-/
namespace LintCorpus

theorem packageNames_eq_ok {values : List Value} {names : List Text} :
    packageNames values = .ok names ↔
      values = names.map .text ∧ ∀ n ∈ names, isPackageName n = true := by
  induction values generalizing names with
  | nil =>
    constructor
    · intro made
      cases made
      exact ⟨rfl, List.forall_mem_nil _⟩
    · rintro ⟨none, -⟩
      rw [List.map_eq_nil_iff.mp none.symm]
      rfl
  | cons v rest ih =>
    rw [packageNames, List.mapM_cons, ← packageNames, bind_eq_ok]
    constructor
    · rintro ⟨n, one, made⟩
      obtain ⟨more, others, made⟩ := bind_eq_ok.mp made
      cases made
      obtain ⟨rfl, valid⟩ := ih.mp others
      split at one
      · split at one
        · next named =>
          cases one
          exact ⟨rfl, List.forall_mem_cons.mpr ⟨named, valid⟩⟩
        · cases one
      · cases one
    · rintro ⟨texts, valid⟩
      cases names with
      | nil => cases texts
      | cons n more =>
        obtain ⟨rfl, others⟩ := List.cons.inj texts
        obtain ⟨named, valid⟩ := List.forall_mem_cons.mp valid
        exact ⟨n, if_pos named, bind_eq_ok.mpr ⟨more, ih.mpr ⟨others, valid⟩, rfl⟩⟩

structure CleanNames (names : List Text) : Prop where
  sorted : sortedSet names = names
  valid : ∀ n ∈ names, isPackageName n = true

theorem cleanNames_sortedSet {names : List Text} (valid : ∀ n ∈ names, isPackageName n = true) :
    CleanNames (sortedSet names) :=
  ⟨sortedSet_congr fun _ => mem_sortedSet, fun n member => valid n (mem_sortedSet.mp member)⟩

theorem cleanNames_of_check {v : Value} {names : List Text}
    (checked : expectedCleanCheck v = .valid names) : CleanNames names := by
  have listed : ∀ values, expectedCleanCheck (.list values) = .valid names → CleanNames names := by
    intro values checked
    simp only [expectedCleanCheck] at checked
    split at checked
    · next named =>
      cases checked
      exact cleanNames_sortedSet (packageNames_eq_ok.mp named).2
    · cases checked
  cases v with
  | list values => exact listed values checked
  | object members => exact listed (members.map fun m : Text × Value => .text m.1) checked
  | _ => cases checked

theorem expectedCleanCheck_ofTexts {names : List Text}
    (valid : ∀ n ∈ names, isPackageName n = true) :
    expectedCleanCheck (.ofTexts names) = .valid (sortedSet names) := by
  have named := packageNames_eq_ok.mpr ⟨rfl, valid⟩
  rw [Value.ofTexts, expectedCleanCheck]
  simp only [named]

theorem CleanSet.cleanNames_of_load {t : FileTree} {p : Path} {names : List Text}
    (loaded : load t p = .ok names) : CleanNames names := by
  obtain ⟨content, -, made⟩ := bind_eq_ok.mp loaded
  obtain ⟨given, -, made⟩ := bind_eq_ok.mp (mapError_eq_ok.mp made)
  split at made
  · next named =>
    cases made
    exact cleanNames_sortedSet (packageNames_eq_ok.mp named).2
  · cases made

end LintCorpus
