import LintCorpus.Proofs.Process.Moves

/-!
In which order a thread does what it has to do for a child. It signals the child before it reaps it,
however the waiting ends and whatever other threads do, so no child is reaped that was not
signalled.
-/
namespace LintCorpus

/-- What a thread does for a child that has not been reaped starts with a signal to it. -/
def Task.AreEnding (tasks : List Task) : Prop :=
  tasks = [.signal .kill] ∨ ∃ grace, tasks = [.signal .term, .await (some grace) [], .signal .kill]

/-- Whether a thread with some duties signals each child before it reaps it, where some children
have been signalled already. -/
def Orderly (signalled : Nat → Prop) : List Duty → Prop
  | [] => True
  | .attend k (.unlessReaped tasks) :: rest =>
    Task.AreEnding tasks ∧ Orderly (fun j => j = k ∨ signalled j) rest
  | .attend k (.signal _) :: rest => Orderly (fun j => j = k ∨ signalled j) rest
  | .attend _ (.await _ tooLate) :: rest =>
    (tooLate = [] ∨ tooLate = Task.termination Task.defaultGrace) ∧ Orderly signalled rest
  | .attend k .reap :: rest => signalled k ∧ Orderly signalled rest
  | _ :: rest => Orderly signalled rest

namespace Orderly

variable {P Q : Nat → Prop} {k : Nat} {tasks : List Task} {rest : List Duty}

theorem mono {duties : List Duty} (orderly : Orderly P duties) (implies : ∀ j, P j → Q j) :
    Orderly Q duties := by
  induction duties generalizing P Q with
  | nil => trivial
  | cons duty rest ih =>
    have wider : ∀ i j, j = i ∨ P j → j = i ∨ Q j := fun i j => Or.imp_right (implies j)
    cases duty with
    | attend k task =>
      cases task with
      | unlessReaped tasks => exact ⟨orderly.1, ih orderly.2 (wider k)⟩
      | signal => exact ih (P := fun j => j = k ∨ P j) orderly (wider k)
      | await => exact ⟨orderly.1, ih orderly.2 implies⟩
      | reap => exact ⟨implies k orderly.1, ih orderly.2 implies⟩
      | unregister => exact ih (P := P) orderly implies
    | spawn | close | drain => exact ih (P := P) orderly implies

theorem signalled (orderly : Orderly (fun j => j = k ∨ P j) rest) (done : P k) : Orderly P rest :=
  orderly.mono fun _ earlier => earlier.elim (fun same => same ▸ done) id

theorem attending_ending (ending : Task.AreEnding tasks)
    (orderly : Orderly (fun j => j = k ∨ P j) rest) :
    Orderly P (Duty.attending k tasks ++ rest) := by
  rcases ending with rfl | ⟨grace, rfl⟩
  · exact orderly
  · exact ⟨.inl rfl, orderly.mono fun _ earlier => .inr earlier⟩

theorem termination (k grace : Nat) (orderly : Orderly P rest) :
    Orderly P (Duty.attending k (Task.termination grace) ++ rest) :=
  ⟨.inr ⟨grace, rfl⟩, .inl rfl, orderly.mono fun _ earlier => .inr earlier⟩

theorem supervision (k : Nat) {limit : Option Nat} (orderly : Orderly P (.spawn limit :: rest)) :
    Orderly P (Duty.attending k (Task.supervision limit) ++ rest) :=
  ⟨.inr rfl, .inl rfl, .inl rfl, mono (P := P) orderly fun _ earlier => .inr earlier⟩

theorem tooLate (late : tasks = [] ∨ tasks = Task.termination Task.defaultGrace)
    (orderly : Orderly P rest) : Orderly P (Duty.attending k tasks ++ rest) := by
  rcases late with rfl | rfl
  · exact orderly
  · exact orderly.termination k _

theorem endings (t : ProcessTable) (orderly : Orderly P rest) :
    Orderly P (t.endings ++ rest) := by
  unfold ProcessTable.endings
  induction t.tracked.map Prod.snd with
  | nil => exact orderly
  | cons k positions ih =>
    rw [List.flatMap_cons, List.append_assoc]
    exact ih.termination k _

theorem spawns (limits : List (Option Nat)) : Orderly P (Duty.work limits) := by
  induction limits with
  | nil => trivial
  | cons limit limits ih => exact ih

end Orderly

theorem Child.isSome_returncode_reap {c : Child} (exited : c.hasExited = true) :
    c.reap.returncode.isSome = true := by
  unfold Child.hasExited at exited
  unfold Child.reap Child.returncode
  cases fate : c.fate with
  | running => simp [fate] at exited
  | exited code => rfl
  | reaped code => simp [fate]

namespace Threads

variable {s t : Threads} {h : Happening} {k : Nat}

theorem returncode_of_running {c : Child} (running : c.hasExited = false) : c.returncode = none := by
  rw [Child.hasExited, bne_eq_false_iff_eq] at running
  rw [Child.returncode, running]

theorem isReaped_exit {j : Nat} {code : Int} (running : s.hasExited k = false) :
    (s.table.change k fun c => { c with fate := .exited code }).isReaped j =
      s.table.isReaped j := by
  apply ProcessTable.isReaped_change
  intro c found
  rw [hasExited, found] at running
  rw [returncode_of_running running]
  rfl

theorem isReaped_reap (exited : s.hasExited k = true) :
    (s.table.change k Child.reap).isReaped k = true := by
  rw [ProcessTable.isReaped, ProcessTable.child?_change, if_pos rfl]
  rw [hasExited] at exited
  cases found : s.table.child? k with
  | none => simp [found] at exited
  | some c =>
    rw [found] at exited
    exact Child.isSome_returncode_reap exited

/-- A child is reaped by a thread that has to reap it, after it has ended. -/
theorem Move.isReaped (move : Move s h t) (later : t.table.isReaped k = true) :
    s.table.isReaped k = true ∨ ∃ thread rest, h = .act thread ∧
      s.duties[thread]? = some (.attend k .reap :: rest) ∧ s.hasExited k = true := by
  cases move with
  | refuse | close | drain | skip | check | signal | await | giveUp => exact .inl later
  | @reap thread j rest due exited =>
    rw [ProcessTable.isReaped, ProcessTable.child?_change] at later
    split_ifs at later with here
    · subst here
      exact .inr ⟨thread, rest, rfl, due, exited⟩
    · exact .inl later
  | unregister =>
    rw [ProcessTable.isReaped, ProcessTable.child?_unregister] at later
    exact .inl later
  | start =>
    rw [ProcessTable.isReaped, ProcessTable.child?_add] at later
    split_ifs at later
    · cases later
    · exact .inl later
  | exit inside running =>
    rw [isReaped_exit running] at later
    exact .inl later

theorem Move.hasSignalled (move : Move s h t) (done : s.hasSignalled k = true) :
    t.hasSignalled k = true := by
  cases move with
  | signal =>
    rw [Threads.hasSignalled, List.any_append, ← Threads.hasSignalled, done]
    rfl
  | _ => exact done

/-- The duties of all threads are in order, and no child is reaped that was not signalled. -/
structure Sound (s : Threads) : Prop where
  orderly : ∀ duties ∈ s.duties, Orderly (fun k => s.hasSignalled k = true) duties
  reaped : ∀ k, s.table.isReaped k = true → s.hasSignalled k = true

namespace Sound

theorem due (sound : s.Sound) {thread : Nat} {duties : List Duty}
    (due : s.duties[thread]? = some duties) : Orderly (fun k => s.hasSignalled k = true) duties :=
  sound.orderly duties (List.mem_of_getElem? due)

theorem orderly_turnTo (sound : s.Sound) (thread : Nat) {duties : List Duty}
    (orderly : Orderly (fun k => s.hasSignalled k = true) duties) :
    ∀ others ∈ (s.turnTo thread duties).duties, Orderly (fun k => s.hasSignalled k = true) others := by
  intro others mem
  rcases List.mem_or_eq_of_mem_set mem with mem | rfl
  · exact sound.orderly others mem
  · exact orderly

theorem first (workers : List (List (Option Nat))) : (ofWorkers workers).Sound where
  orderly := by
    intro duties mem
    rcases List.mem_cons.mp mem with rfl | mem
    · trivial
    · obtain ⟨limits, -, rfl⟩ := List.mem_map.mp mem
      exact Orderly.spawns limits
  reaped := by
    intro k reaped
    cases reaped

theorem moves (sound : s.Sound) (move : Move s h t) : t.Sound := by
  refine ⟨?_, fun k later => ?_⟩
  · cases move with
    | refuse due | close due | unregister due =>
      have orderly := sound.due due
      exact sound.orderly_turnTo _ orderly
    | drain due =>
      have orderly := sound.due due
      exact sound.orderly_turnTo _ (Orderly.endings s.table orderly)
    | skip due reaped =>
      obtain ⟨-, orderly⟩ := sound.due due
      exact sound.orderly_turnTo _ (orderly.signalled (sound.reaped _ reaped))
    | check due =>
      obtain ⟨ending, orderly⟩ := sound.due due
      exact sound.orderly_turnTo _ (orderly.attending_ending ending)
    | @signal thread k signal rest due =>
      -- the child counts as signalled from now on, for this thread and for the others
      have orderly : Orderly (fun j => j = k ∨ s.hasSignalled j = true) rest := sound.due due
      have more (j : Nat) (done : j = k ∨ s.hasSignalled j = true) :
          hasSignalled { s with sent := s.sent ++ [⟨k, signal, s.table.isReaped k⟩] } j = true := by
        rw [hasSignalled, List.any_append, ← hasSignalled]
        rcases done with rfl | done
        · simp
        · simp [done]
      intro others mem
      rcases List.mem_or_eq_of_mem_set mem with mem | rfl
      · exact (sound.orderly others mem).mono fun j done => more j (.inr done)
      · exact orderly.mono more
    | await due | reap due =>
      obtain ⟨-, orderly⟩ := sound.due due
      exact sound.orderly_turnTo _ orderly
    | giveUp due =>
      obtain ⟨late, orderly⟩ := sound.due due
      exact sound.orderly_turnTo _ (orderly.tooLate late)
    | start due =>
      have orderly := sound.due due
      exact sound.orderly_turnTo _ (orderly.supervision _)
    | exit => exact sound.orderly
  · rcases move.isReaped later with earlier | ⟨thread, rest, -, due, -⟩
    · exact move.hasSignalled (sound.reaped k earlier)
    · exact move.hasSignalled (sound.due due).1

end Sound
end Threads
end LintCorpus
