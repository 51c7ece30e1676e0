import LintCorpus.Proofs.Aggregate.Valid
import LintCorpus.Stored.Form
import LintCorpus.Stored.Schema
import Mathlib.Data.List.Basic

/-!
Changing the members of a result one after the other. A member is in place before the result as a
whole is looked at, so a value that passes the check of its member but does not go with the rest
stays there although it is refused. Everything else is either taken, which leaves a valid result, or
refused without effect.
-/
namespace LintCorpus

open Schema

theorem assignMember_eq_ok {α β : Type} {name : Text} {check : Check α} {v : Value} {set : α → β}
    {b : β} : assignMember name check v set = .ok b ↔ ∃ a, check v = .valid a ∧ b = set a := by
  rw [assignMember]
  cases check v with
  | valid a =>
    simp only [Checked.inside, Except.ok.injEq, Checked.valid.injEq, exists_eq_left']
    exact eq_comm
  | invalid faults => simp [Checked.inside]

theorem assignOther_eq_ok {α : Type} {a b : α} {name : Text} {v : Value}
    (assigned : assignOther a name v = .ok b) : b = a ∧ isPrivateName name = true := by
  rw [assignOther] at assigned
  split at assigned
  · next hidden =>
    refine ⟨?_, hidden⟩
    unfold assignPrivate at assigned
    split_ifs at assigned
    exact (Except.ok.inj assigned).symm
  · split at assigned
    · cases assigned
    · split at assigned <;> cases assigned

namespace CorpusResult

theorem Valid.congr {r s : CorpusResult} (packages : s.packages = r.packages)
    (diagnostics : s.diagnostics = r.diagnostics) : s.Valid ↔ r.Valid := by
  have filed : s.filed = r.filed := by rw [CorpusResult.filed, diagnostics, CorpusResult.filed]
  have all : s.allDiagnostics = r.allDiagnostics := by
    rw [allDiagnostics, diagnostics, allDiagnostics]
  constructor
  · rintro ⟨own, known, distinct⟩
    exact ⟨filed ▸ own, all ▸ packages ▸ known, all ▸ distinct⟩
  · rintro ⟨own, known, distinct⟩
    exact ⟨filed ▸ own, by rw [all, packages]; exact known, by rw [all]; exact distinct⟩

theorem checkValid_cases (r : CorpusResult) :
    (r.Valid ∧ r.checkValid = .valid r) ∨
      ¬r.Valid ∧ ∃ fault : ResultFault, r.checkValid = .fail (.rejected fault.message) := by
  rw [checkValid]
  cases checked : r.check with
  | ok s =>
    obtain ⟨rfl, valid⟩ := (check_eq_ok r s).mp checked
    exact .inl ⟨valid, rfl⟩
  | error fault =>
    refine .inr ⟨fun valid => ?_, fault, rfl⟩
    rw [(check_eq_ok r r).mpr ⟨rfl, valid⟩] at checked
    cases checked

theorem ofValue_valid {v : Value} {r : CorpusResult} (read : ofValue v = .valid r) : r.Valid := by
  unfold ofValue record at read
  split at read
  · next members =>
    unfold ofMembers Checked.andThen at read
    split at read
    · next raw _ =>
      rcases raw.checkValid_cases with ⟨valid, passed⟩ | ⟨-, fault, failed⟩
      · rw [passed] at read
        cases read
        exact valid
      · rw [failed] at read
        cases read
    · cases read
  · cases read

variable {r s : CorpusResult} {name : Text} {v : Value}

/-- What a change that passes the check of its member does to what validity rests on. -/
theorem setMember_cases (set : r.setMember name v = .ok s) :
    (name = "packages" ∧ ∃ ps, list text v = .valid ps ∧ s = { r with packages := ps }) ∨
      (name = "diagnostics" ∧ ∃ ds, filedCheck v = .valid ds ∧ s = { r with diagnostics := ds }) ∨
        s.packages = r.packages ∧ s.diagnostics = r.diagnostics := by
  unfold setMember at set
  split at set
  · obtain ⟨a, -, rfl⟩ := assignMember_eq_ok.mp set
    exact .inr (.inr ⟨rfl, rfl⟩)
  split at set
  · obtain ⟨a, -, rfl⟩ := assignMember_eq_ok.mp set
    exact .inr (.inr ⟨rfl, rfl⟩)
  split at set
  · next packages => exact .inl ⟨packages, assignMember_eq_ok.mp set⟩
  split at set
  · obtain ⟨a, -, rfl⟩ := assignMember_eq_ok.mp set
    exact .inr (.inr ⟨rfl, rfl⟩)
  split at set
  · next diagnostics => exact .inr (.inl ⟨diagnostics, assignMember_eq_ok.mp set⟩)
  · obtain ⟨rfl, -⟩ := assignOther_eq_ok set
    exact .inr (.inr ⟨rfl, rfl⟩)

theorem setMember_packages {ps : List Text} (checked : list text v = .valid ps) :
    r.setMember "packages" v = .ok { r with packages := ps } := by
  have set : assignMember "packages" (list text) v (fun a => { r with packages := a }) =
    .ok { r with packages := ps } := assignMember_eq_ok.mpr ⟨ps, checked, rfl⟩
  exact set

theorem setMember_diagnostics {ds : Dict (List Diagnostic)} (checked : filedCheck v = .valid ds) :
    r.setMember "diagnostics" v = .ok { r with diagnostics := ds } := by
  exact assignMember_eq_ok.mpr ⟨ds, checked, rfl⟩

/-- All that a change can do: it is refused for its member and nothing happens; it is taken; or it
is in place, and refused because of the rest. -/
theorem assign_cases (r : CorpusResult) (name : Text) (v : Value) :
    (∃ fault, r.setMember name v = .error fault ∧ r.assign name v = (r, some fault)) ∨
      (∃ s, r.setMember name v = .ok s ∧ r.assign name v = (s, none) ∧
        (s.Valid ∨ isPrivateName name = true)) ∨
      ∃ s fault, r.setMember name v = .ok s ∧ ¬s.Valid ∧
        r.assign name v = (s, some (.invalid [⟨[], .rejected (ResultFault.message fault)⟩])) := by
  cases set : r.setMember name v with
  | error fault => exact .inl ⟨fault, rfl, by rw [assign, set]⟩
  | ok s =>
    cases hidden : isPrivateName name with
    | true => exact .inr (.inl ⟨s, rfl, by rw [assign, set]; simp [hidden], .inr rfl⟩)
    | false =>
      rcases s.checkValid_cases with ⟨valid, passed⟩ | ⟨invalid, fault, failed⟩
      · exact .inr (.inl ⟨s, rfl, by rw [assign, set]; simp [hidden, passed], .inl valid⟩)
      · refine .inr (.inr ⟨s, fault, rfl, invalid, ?_⟩)
        rw [assign, set]
        simp [hidden, failed, Checked.fail]

/-- What is assigned goes with the rest, if it can stand under the name at all: the packages cover
those of the findings, and findings make up a valid result. -/
structure Fits (r : CorpusResult) (name : Text) (v : Value) : Prop where
  packages : name = "packages" → ∀ ps, list text v = .valid ps →
    ∀ d ∈ r.allDiagnostics, d.package ∈ ps
  diagnostics : name = "diagnostics" → ∀ ds, filedCheck v = .valid ds →
    ({ r with diagnostics := ds } : CorpusResult).Valid

/-- A change leaves a valid result, and the very same one if it is refused. -/
def Upholds (r : CorpusResult) (name : Text) (v : Value) : Prop :=
  (r.assign name v).1.Valid ∧ ((r.assign name v).2.isSome = true → (r.assign name v).1 = r)

/-- A change that is taken leaves a valid result, whatever it was made to. -/
def Settles (r : CorpusResult) (name : Text) (v : Value) : Prop :=
  isPrivateName name = false → (r.assign name v).2 = none → (r.assign name v).1.Valid

def Throughout (claim : CorpusResult → Text → Value → Prop) (r : CorpusResult) :
    List (Text × Value) → Prop
  | [] => True
  | (name, v) :: rest => claim r name v ∧ Throughout claim (r.assign name v).1 rest

theorem settles (r : CorpusResult) (name : Text) (v : Value) : r.Settles name v := by
  intro known taken
  rcases r.assign_cases name v with ⟨fault, -, same⟩ | ⟨s, -, same, valid⟩ | ⟨s, fault, -, -, same⟩
  · rw [same] at taken
    cases taken
  · rw [same]
    exact valid.resolve_right (by simp [known])
  · rw [same] at taken
    cases taken

theorem upholds_iff_set (valid : r.Valid) :
    r.Upholds name v ↔ ∀ s, r.setMember name v = .ok s → s.Valid := by
  rw [Upholds]
  rcases r.assign_cases name v with ⟨fault, set, same⟩ | ⟨s, set, same, -⟩ |
    ⟨s, fault, set, invalid, same⟩
  · simp [set, same, valid]
  · simp [set, same]
  · simp [set, same, invalid]

theorem fits_iff_set (valid : r.Valid) :
    r.Fits name v ↔ ∀ s, r.setMember name v = .ok s → s.Valid := by
  constructor
  · intro fits s set
    rcases setMember_cases set with ⟨rfl, ps, checked, rfl⟩ | ⟨rfl, ds, checked, rfl⟩ |
      ⟨packages, diagnostics⟩
    · exact ⟨valid.filed, fits.packages rfl ps checked, valid.distinct⟩
    · exact fits.diagnostics rfl ds checked
    · exact (Valid.congr packages diagnostics).mpr valid
  · intro sound
    constructor
    · rintro rfl ps checked
      exact (sound _ (setMember_packages checked)).known
    · rintro rfl ds checked
      exact sound _ (setMember_diagnostics checked)

theorem throughout_settles (r : CorpusResult) (changes : List (Text × Value)) :
    r.Throughout Settles changes := by
  induction changes generalizing r with
  | nil => trivial
  | cons change rest ih => exact ⟨r.settles _ _, ih _⟩

theorem throughout_upholds_iff (valid : r.Valid) (changes : List (Text × Value)) :
    r.Throughout Upholds changes ↔ r.Throughout Fits changes := by
  -- a change that upholds leaves a valid result, which is what the next one is judged on
  induction changes generalizing r with
  | nil => exact Iff.rfl
  | cons change rest ih =>
    have here : r.Upholds change.1 change.2 ↔ r.Fits change.1 change.2 :=
      (upholds_iff_set valid).trans (fits_iff_set valid).symm
    constructor
    · rintro ⟨upheld, later⟩
      exact ⟨here.mp upheld, (ih upheld.1).mp later⟩
    · rintro ⟨fits, later⟩
      have upheld := here.mpr fits
      exact ⟨upheld, (ih upheld.1).mpr later⟩

/-- Changes of a result that was read keep it valid and are without effect where they are refused,
exactly if each of them goes with what it finds. A change that is taken leaves a valid result in any
case. -/
theorem assignments_upheld_iff {source : Value} {r : CorpusResult}
    (read : ofValue source = .valid r) (changes : List (Text × Value)) :
    (r.Throughout Upholds changes ↔ r.Throughout Fits changes) ∧ r.Throughout Settles changes :=
  ⟨throughout_upholds_iff (ofValue_valid read) changes, r.throughout_settles changes⟩

/-- Another package comes in front, a list is refused for findings, and a lint is named. -/
theorem assignments_upheld_refused :
    let finding : Diagnostic := { package := "a", rule := "x", severity := .warning, message := "m" }
    let source : Value :=
      .object [("root", .text "/"), ("packages", .list [.text "a"]),
        ("diagnostics", .object [("x", .list [finding.toValue])])]
    let r : CorpusResult :=
      { root := Path.ofText "/", packages := ["a"], diagnostics := .ofList [("x", [finding])] }
    ofValue source = .valid r ∧
      r.Throughout Upholds [("packages", .list [.text "b", .text "a"]), ("diagnostics", .list []),
        ("target_lint", .text "x")] := by
  intro finding source r
  have read : ofValue source = .valid r := rfl
  refine ⟨read, (assignments_upheld_iff read _).1.mpr ⟨?_, ?_, ?_, trivial⟩⟩
  · refine ⟨fun _ ps checked => ?_, fun other => absurd other (by decide)⟩
    obtain rfl : (["b", "a"] : List Text) = ps := Checked.valid.inj checked
    decide +kernel
  · refine ⟨fun other => absurd other (by decide), fun _ ds checked => ?_⟩
    cases checked
  · exact ⟨fun other => absurd other (by decide), fun other => absurd other (by decide)⟩

/-- The only package is exchanged although a finding names it. -/
theorem assignment_refused_in_place :
    let finding : Diagnostic := { package := "a", rule := "x", severity := .warning, message := "m" }
    let source : Value :=
      .object [("root", .text "/"), ("packages", .list [.text "a"]),
        ("diagnostics", .object [("x", .list [finding.toValue])])]
    ∃ r, ofValue source = .valid r ∧ r.packages = ["a"] ∧
      let (s, fault) := r.assign "packages" (.list [.text "b"])
      fault = some (.invalid
        [⟨[], .rejected "diagnostic references unknown package 'a'"⟩]) ∧
        s.packages = ["b"] ∧ ¬s.Valid ∧
          ¬r.Throughout Upholds [("packages", .list [.text "b"])] := by
  intro finding source
  let r : CorpusResult :=
    { root := Path.ofText "/", packages := ["a"], diagnostics := .ofList [("x", [finding])] }
  have read : ofValue source = .valid r := rfl
  let s : CorpusResult := { r with packages := ["b"] }
  have assigned : r.assign "packages" (.list [.text "b"]) = (s, some (.invalid
      [⟨[], .rejected "diagnostic references unknown package 'a'"⟩])) := by decide +kernel
  have invalid : ¬s.Valid := fun valid => absurd valid.known (by decide +kernel)
  refine ⟨r, read, rfl, ?_⟩
  rw [assigned]
  refine ⟨rfl, rfl, invalid, fun upheld => invalid ?_⟩
  have left := upheld.1.1
  rwa [assigned] at left

end CorpusResult
end LintCorpus
