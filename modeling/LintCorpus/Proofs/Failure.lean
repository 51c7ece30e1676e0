import LintCorpus.Files.Fault
import Mathlib.Data.List.Forall2

/-!
Results that may be faults. A caller expects some faults and reports them; any other one ends the
program.
-/
namespace LintCorpus

variable {α β ε δ : Type} {P : ε → Prop}

/-- If there is no value, it is for a fault that `P` holds of. -/
def FailsOnly (P : ε → Prop) (result : Except ε α) : Prop :=
  ∀ fault, result = .error fault → P fault

@[simp] theorem failsOnly_ok (a : α) : FailsOnly P (.ok a) := nofun

@[simp] theorem failsOnly_error (fault : ε) :
    FailsOnly P (.error fault : Except ε α) ↔ P fault := by
  simp [FailsOnly]

theorem failsOnly_bind (first : Except ε α) (next : α → Except ε β) :
    FailsOnly P (first >>= next) ↔
      FailsOnly P first ∧ ∀ a, first = .ok a → FailsOnly P (next a) := by
  rcases first with fault | a
  · show FailsOnly P (.error fault) ↔ _
    simp
  · show FailsOnly P (next a) ↔ _
    simp

@[simp] theorem failsOnly_mapError (f : δ → ε) (result : Except δ α) :
    FailsOnly P (result.mapError f) ↔ FailsOnly (fun fault => P (f fault)) result := by
  rcases result with fault | a
  · show FailsOnly P (.error (f fault)) ↔ _
    simp
  · show FailsOnly P (.ok a) ↔ _
    simp

theorem bind_eq_ok {first : Except ε α} {next : α → Except ε β} {b : β} :
    first >>= next = .ok b ↔ ∃ a, first = .ok a ∧ next a = .ok b := by
  rcases first with fault | a
  · exact ⟨nofun, nofun⟩
  · show next a = .ok b ↔ _
    simp

theorem map_eq_ok {f : α → β} {result : Except ε α} {b : β} :
    result.map f = .ok b ↔ ∃ a, result = .ok a ∧ f a = b := by
  rcases result with fault | a
  · exact ⟨nofun, nofun⟩
  · show (.ok (f a) : Except ε β) = .ok b ↔ _
    simp

@[simp] theorem mapError_eq_ok {f : δ → ε} {result : Except δ α} {a : α} :
    result.mapError f = .ok a ↔ result = .ok a := by
  rcases result with fault | b
  · exact ⟨nofun, nofun⟩
  · show (.ok b : Except ε α) = .ok a ↔ _
    simp

theorem toOption_eq_some {result : Except ε α} {a : α} :
    result.toOption = some a ↔ result = .ok a := by
  rcases result with fault | b
  · exact ⟨nofun, nofun⟩
  · change some b = some a ↔ _
    simp

/-- What a traversal makes is made of its members one by one. -/
theorem forall₂_of_mapM {f : α → Except ε β} {as : List α} {bs : List β}
    (made : as.mapM f = .ok bs) : List.Forall₂ (fun a b => f a = .ok b) as bs := by
  induction as generalizing bs with
  | nil =>
    cases made
    exact .nil
  | cons a rest ih =>
    rw [List.mapM_cons] at made
    obtain ⟨first, one, made⟩ := bind_eq_ok.mp made
    obtain ⟨others, more, made⟩ := bind_eq_ok.mp made
    cases made
    exact .cons one (ih more)

theorem exists_of_mem_mapM {f : α → Except ε β} {as : List α} {bs : List β}
    (made : as.mapM f = .ok bs) : ∀ b ∈ bs, ∃ a ∈ as, f a = .ok b := by
  have each := forall₂_of_mapM made
  clear made
  induction each with
  | nil => exact nofun
  | @cons a _ _ _ one _ ih =>
    rintro b (_ | ⟨_, later⟩)
    · exact ⟨a, List.mem_cons_self, one⟩
    · obtain ⟨c, member, given⟩ := ih b later
      exact ⟨c, List.mem_cons_of_mem a member, given⟩

theorem mapM_eq_ok {f : α → Except ε β} {g : α → β} {as : List α}
    (each : ∀ a ∈ as, f a = .ok (g a)) : as.mapM f = .ok (as.map g) := by
  induction as with
  | nil => rfl
  | cons a rest ih =>
    obtain ⟨first, others⟩ := List.forall_mem_cons.mp each
    rw [List.mapM_cons, first, ih others]
    rfl

/-- If all faults are alike, it does not matter where the first one is met. -/
theorem mapM_eq_error {f : α → Except ε β} {as : List α} {fault : ε}
    (alike : ∀ a ∈ as, FailsOnly (· = fault) (f a)) (met : ∃ a ∈ as, f a = .error fault) :
    as.mapM f = .error fault := by
  induction as with
  | nil => simp at met
  | cons a rest ih =>
    obtain ⟨first, others⟩ := List.forall_mem_cons.mp alike
    rw [List.mapM_cons]
    rcases made : f a with other | b
    · rw [first other made]
      rfl
    · have later : ∃ a ∈ rest, f a = .error fault := by
        simpa [made] using met
      rw [ih others later]
      rfl

theorem failsOnly_true (result : Except ε α) : FailsOnly (fun _ => True) result :=
  fun _ _ => trivial

theorem failsOnly_false (result : Except ε α) :
    FailsOnly (fun _ => False) result ↔ ∃ a, result = .ok a := by
  rcases result with fault | a <;> simp

def FileFault.IsRefusal : FileFault → Prop
  | .refused _ _ => True
  | _ => False

namespace Failure

def IsReported : Failure ε → Prop
  | .reported _ => True
  | .aborted _ => False

@[simp] theorem isReported_reported (fault : ε) : (reported fault).IsReported ↔ True := Iff.rfl

@[simp] theorem isReported_aborted (fault : FileFault) :
    (aborted fault : Failure ε).IsReported ↔ False := Iff.rfl

@[simp] theorem isReported_mapReported (f : ε → δ) (failure : Failure ε) :
    (failure.mapReported f).IsReported ↔ failure.IsReported := by
  cases failure <;> rfl

@[simp] theorem isReported_ofFile (report : FileFault → ε) (fault : FileFault) :
    (ofFile report fault).IsReported ↔ fault.IsRefusal := by
  cases fault <;> rfl

end Failure

/-- There is a value, or a fault that its caller expects and reports. -/
def Settled (result : Except (Failure ε) α) : Prop := FailsOnly Failure.IsReported result

@[simp] theorem settled_ok (a : α) : Settled (.ok a : Except (Failure ε) α) := failsOnly_ok a

@[simp] theorem settled_error (failure : Failure ε) :
    Settled (.error failure : Except (Failure ε) α) ↔ failure.IsReported := failsOnly_error failure

theorem settled_bind (first : Except (Failure ε) α) (next : α → Except (Failure ε) β) :
    Settled (first >>= next) ↔ Settled first ∧ ∀ a, first = .ok a → Settled (next a) :=
  failsOnly_bind first next

theorem settled_mapError (f : δ → Failure ε) (result : Except δ α) :
    Settled (result.mapError f) ↔ FailsOnly (fun fault => (f fault).IsReported) result :=
  failsOnly_mapError f result

@[simp] theorem settled_mapReported (report : ε → δ) (result : Except (Failure ε) α) :
    Settled (result.mapError (Failure.mapReported report)) ↔ Settled result := by
  simp only [settled_mapError, Failure.isReported_mapReported]
  rfl

@[simp] theorem settled_reported (result : Except ε α) :
    Settled (result.mapError Failure.reported) := by
  simp [settled_mapError, failsOnly_true]

@[simp] theorem settled_aborted (result : Except FileFault α) :
    Settled (result.mapError Failure.aborted : Except (Failure ε) α) ↔ ∃ a, result = .ok a := by
  simp [settled_mapError, failsOnly_false]

theorem settled_asked (asked : Except FileFault Bool) (yes no : Except (Failure ε) α) :
    Settled (do if ← asked.mapError Failure.aborted then yes else no) ↔
      (∃ found, asked = .ok found) ∧ (asked = .ok true → Settled yes) ∧
        (asked = .ok false → Settled no) := by
  rw [settled_bind, settled_aborted]
  refine and_congr_right fun _ => ?_
  simp only [mapError_eq_ok, Bool.forall_bool, Bool.false_eq_true, if_false, if_true]
  exact and_comm

end LintCorpus
