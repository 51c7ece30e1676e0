import LintCorpus.Json.Limits
import LintCorpus.Proofs.Failure

/-!
Limits do not change what is read, only how much. A text is beyond them, or it is read as without.
-/
namespace LintCorpus.Json

namespace Reader

variable (limits : Limits) (r : Reader)

private theorem stepWithin_cases (c : Nat) :
    (∃ excess, r.stepWithin limits c = .error (.exceeding excess)) ∨
      r.stepWithin limits c = (r.step c).mapError .malformed := by
  unfold stepWithin
  split
  · exact .inl ⟨_, rfl⟩
  · split
    · next failed => exact .inr (by rw [failed]; rfl)
    · next taken =>
      split
      · exact .inl ⟨_, rfl⟩
      · exact .inr (by rw [taken]; rfl)

private theorem foldlM_stepWithin_cases (t : Text) :
    (∃ excess, t.foldlM (stepWithin limits) r = .error (.exceeding excess)) ∨
      t.foldlM (stepWithin limits) r = (t.foldlM step r).mapError .malformed := by
  induction t generalizing r with
  | nil => exact .inr rfl
  | cons c rest ih =>
    rw [List.foldlM_cons, List.foldlM_cons]
    rcases stepWithin_cases limits r c with ⟨excess, beyond⟩ | same
    · exact .inl ⟨excess, by rw [beyond]; rfl⟩
    · rw [same]
      cases r.step c with
      | error e => exact .inr rfl
      | ok next => exact ih next

private theorem finishWithin_cases :
    (∃ excess, r.finishWithin limits = .error (.exceeding excess)) ∨
      r.finishWithin limits = r.finish.mapError .malformed := by
  unfold finishWithin
  split
  · exact .inl ⟨_, rfl⟩
  · exact .inr rfl

end Reader

variable {limits : Limits} {t : Text}

/-- A text goes beyond the limits, or it is read as if there were none. -/
theorem load_cases (limits : Limits) (t : Text) :
    (∃ excess, load limits t = .error (.exceeding excess)) ∨
      load limits t = (read t).mapError .malformed := by
  unfold load read
  split
  · exact .inr rfl
  · rcases Reader.foldlM_stepWithin_cases limits {} t with ⟨excess, beyond⟩ | same
    · exact .inl ⟨excess, by rw [beyond]; rfl⟩
    · rw [same]
      cases t.foldlM Reader.step {} with
      | error e => exact .inr rfl
      | ok last => exact Reader.finishWithin_cases limits last

theorem read_of_load {v : Value} (loaded : load limits t = .ok v) : read t = .ok v := by
  rcases load_cases limits t with ⟨excess, beyond⟩ | same
  · rw [beyond] at loaded
    cases loaded
  · rw [same] at loaded
    cases taken : read t with
    | error e =>
      rw [taken] at loaded
      cases loaded
    | ok other =>
      rw [taken] at loaded
      cases loaded
      rfl

/-- A number in a text that is loaded is within the limits. -/
theorem number_of_load {front back : Text} {c : Nat} {v : Value} {q : Reader} {n : NumberState}
    (loaded : load limits (front ++ c :: back) = .ok v) (taken : front.foldlM Reader.step {} = .ok q)
    (phase : q.phase = .number n) (ends : n.extend? q.position c = none) :
    n.excess? limits = none := by
  unfold load at loaded
  split at loaded
  · cases loaded
  · rw [bind_eq_ok] at loaded
    obtain ⟨last, steps, -⟩ := loaded
    rw [List.foldlM_append, bind_eq_ok] at steps
    obtain ⟨middle, before, behind⟩ := steps
    rw [List.foldlM_cons, bind_eq_ok] at behind
    obtain ⟨next, here, -⟩ := behind
    obtain rfl : middle = q := by
      rcases Reader.foldlM_stepWithin_cases limits {} front with ⟨excess, beyond⟩ | same
      · cases beyond.symm.trans before
      · rw [same, taken] at before
        cases before
        rfl
    have ended : middle.ended? (some c) = some n := by
      simp [Reader.ended?, phase, ends]
    cases beyond : n.excess? limits with
    | none => rfl
    | some excess =>
      rw [Reader.stepWithin, ended, Option.bind_some, beyond] at here
      cases here

end LintCorpus.Json
