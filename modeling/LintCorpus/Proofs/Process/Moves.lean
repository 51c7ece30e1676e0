import LintCorpus.Process.Threads
import Mathlib.Data.List.Induction
import Mathlib.Tactic.Common

/-!
What threads that share a table of children can do next, one case for each thing that can happen,
and what follows for everything that is kept by each of them.
-/
namespace LintCorpus

namespace ProcessTable

variable {t : ProcessTable} {position k : Nat}

theorem child?_change (t : ProcessTable) (position k : Nat) (f : Child → Child) :
    (t.change position f).child? k = if position = k then (t.child? k).map f else t.child? k := by
  rw [child?, change, List.getElem?_modify, child?]
  split <;> simp

theorem length_change (t : ProcessTable) (position : Nat) (f : Child → Child) :
    (t.change position f).children.length = t.children.length := by
  simp [change]

theorem child?_add (t : ProcessTable) (pid k : Nat) (b : Behaviour) :
    (t.add pid b).child? k =
      if k = t.children.length then some (Child.start pid b) else t.child? k := by
  rw [child?, add, child?, List.getElem?_append]
  split_ifs with inside last last
  · omega
  · rfl
  · simp [last]
  · have beyond : t.children.length < k := by omega
    rw [List.getElem?_eq_none (Nat.le_of_lt beyond), List.getElem?_eq_none]
    rw [List.length_singleton]
    omega

theorem child?_unregister (t : ProcessTable) (position k : Nat) :
    (t.unregister position).child? k = t.child? k := by
  unfold unregister
  split <;> rfl

theorem length_unregister (t : ProcessTable) (position : Nat) :
    (t.unregister position).children.length = t.children.length := by
  unfold unregister
  split <;> rfl

theorem isClosed_unregister (t : ProcessTable) (position : Nat) :
    (t.unregister position).isClosed = t.isClosed := by
  unfold unregister
  split <;> rfl

theorem isReaped_change {f : Child → Child}
    (same : ∀ c, t.child? position = some c → (f c).returncode.isSome = c.returncode.isSome) :
    (t.change position f).isReaped k = t.isReaped k := by
  rw [isReaped, child?_change, isReaped]
  split_ifs with here
  · subst here
    cases found : t.child? position with
    | none => rfl
    | some c => simpa using same c found
  · rfl

/-- What the thread that ends a run does for the tracked children. -/
def endings (t : ProcessTable) : List Duty :=
  (t.tracked.map Prod.snd).flatMap fun k =>
    Duty.attending k (Task.termination Task.defaultGrace)

end ProcessTable

namespace Threads

variable {s t u : Threads} {h : Happening}

/-- What can happen, and the threads after it. -/
inductive Move (s : Threads) : Happening → Threads → Prop
  | refuse {thread limit rest} (due : s.duties[thread]? = some (.spawn limit :: rest))
      (closed : s.table.isClosed = true) : Move s (.act thread) (s.turnTo thread rest)
  | close {thread rest} (due : s.duties[thread]? = some (.close :: rest)) :
      Move s (.act thread) { s.turnTo thread rest with table := s.table.close }
  | drain {thread rest} (due : s.duties[thread]? = some (.drain :: rest)) :
      Move s (.act thread)
        { s.turnTo thread (s.table.endings ++ rest) with table := { s.table with tracked := [] } }
  | skip {thread k tasks rest}
      (due : s.duties[thread]? = some (.attend k (.unlessReaped tasks) :: rest))
      (reaped : s.table.isReaped k = true) : Move s (.act thread) (s.turnTo thread rest)
  | check {thread k tasks rest}
      (due : s.duties[thread]? = some (.attend k (.unlessReaped tasks) :: rest))
      (unreaped : s.table.isReaped k = false) :
      Move s (.act thread) (s.turnTo thread (Duty.attending k tasks ++ rest))
  | signal {thread k signal rest}
      (due : s.duties[thread]? = some (.attend k (.signal signal) :: rest)) :
      Move s (.act thread)
        { s.turnTo thread rest with sent := s.sent ++ [⟨k, signal, s.table.isReaped k⟩] }
  | await {thread k limit tooLate rest}
      (due : s.duties[thread]? = some (.attend k (.await limit tooLate) :: rest))
      (exited : s.hasExited k = true) : Move s (.act thread) (s.turnTo thread rest)
  | reap {thread k rest} (due : s.duties[thread]? = some (.attend k .reap :: rest))
      (exited : s.hasExited k = true) :
      Move s (.act thread) { s.turnTo thread rest with table := s.table.change k Child.reap }
  | unregister {thread k rest} (due : s.duties[thread]? = some (.attend k .unregister :: rest)) :
      Move s (.act thread) { s.turnTo thread rest with table := s.table.unregister k }
  | giveUp {thread k limit tooLate rest}
      (due : s.duties[thread]? = some (.attend k (.await (some limit) tooLate) :: rest))
      (running : s.hasExited k = false) :
      Move s (.giveUp thread) (s.turnTo thread (Duty.attending k tooLate ++ rest))
  | start {thread pid limit rest} (due : s.duties[thread]? = some (.spawn limit :: rest))
      (isOpen : s.table.isClosed = false) (free : s.holds pid = false) :
      Move s (.start thread pid)
        { s.turnTo thread
            (Duty.attending s.table.children.length (Task.supervision limit) ++ rest) with
          table := s.table.add pid {} }
  | exit {k code} (inside : k < s.table.children.length) (running : s.hasExited k = false) :
      Move s (.exit k code)
        { s with table := s.table.change k fun c => { c with fate := .exited code } }

theorem act_moves {thread : Nat} (acts : s.act thread = some t) : Move s (.act thread) t := by
  unfold act at acts
  split at acts
  · next due =>
    split_ifs at acts with closed
    cases acts
    exact .refuse due closed
  · next due =>
    cases acts
    exact .close due
  · next due =>
    cases acts
    exact .drain due
  · next k task rest due =>
    cases task with
    | unlessReaped tasks =>
      simp only [attend] at acts
      split_ifs at acts with reaped
      · cases acts
        exact .skip due reaped
      · cases acts
        exact .check due (Bool.eq_false_iff.mpr reaped)
    | signal signal =>
      cases acts
      exact .signal due
    | await limit tooLate =>
      simp only [attend] at acts
      split_ifs at acts with exited
      cases acts
      exact .await due exited
    | reap =>
      simp only [attend] at acts
      split_ifs at acts with exited
      cases acts
      exact .reap due exited
    | unregister =>
      cases acts
      exact .unregister due
  · cases acts

theorem step_moves (steps : s.step h = some t) : Move s h t := by
  cases h with
  | act thread => exact act_moves steps
  | giveUp thread =>
    simp only [step, giveUp] at steps
    split at steps
    · next due =>
      split_ifs at steps with exited
      cases steps
      exact .giveUp due (Bool.eq_false_iff.mpr exited)
    · cases steps
  | start thread pid =>
    simp only [step, start] at steps
    split at steps
    · next due =>
      split_ifs at steps with refused
      cases steps
      rw [Bool.or_eq_true, not_or] at refused
      exact .start due (Bool.eq_false_iff.mpr refused.1) (Bool.eq_false_iff.mpr refused.2)
    · cases steps
  | exit k code =>
    simp only [step, exit] at steps
    split_ifs at steps with refused
    cases steps
    rw [Bool.or_eq_true, not_or, decide_eq_true_eq] at refused
    exact .exit (by omega) (Bool.eq_false_iff.mpr refused.2)

theorem Move.steps (move : Move s h t) : s.step h = some t := by
  cases move with
  | refuse due closed =>
    rw [step, act, due]
    exact if_pos closed
  | close due => rw [step, act, due]
  | drain due | signal due | unregister due =>
    rw [step, act, due]
    rfl
  | skip due reaped =>
    rw [step, act, due]
    exact if_pos reaped
  | check due unreaped =>
    rw [step, act, due]
    exact if_neg (Bool.eq_false_iff.mp unreaped)
  | await due exited | reap due exited =>
    rw [step, act, due]
    exact if_pos exited
  | giveUp due running =>
    rw [step, Threads.giveUp, due]
    exact if_neg (Bool.eq_false_iff.mp running)
  | start due isOpen free =>
    rw [step, Threads.start, due]
    simp [isOpen, free]
  | exit inside running =>
    rw [step, Threads.exit, running]
    simp [Nat.not_le.mpr inside]

/-! ### Duties -/

def HasDuty (s : Threads) (duty : Duty) : Prop := ∃ duties ∈ s.duties, duty ∈ duties

section Turn

variable {thread : Nat} {duty wanted : Duty} {rest new : List Duty}
  (due : s.duties[thread]? = some (duty :: rest))

include due

theorem duties_turnTo (duties : List Duty) : (s.turnTo thread duties).duties[thread]? = some duties :=
  List.getElem?_set_self (List.getElem?_eq_some_iff.mp due).1

theorem hasDuty_due : s.HasDuty duty := ⟨_, List.mem_of_getElem? due, List.mem_cons_self⟩

/-- The duties that a thread has after one of them were its duties before or are new. -/
theorem mem_of_turn {i : Nat} {duties : List Duty}
    (found : (s.turnTo thread (new ++ rest)).duties[i]? = some duties) (mem : wanted ∈ duties) :
    wanted ∈ new ∨ ∃ earlier, s.duties[i]? = some earlier ∧ wanted ∈ earlier := by
  by_cases here : thread = i
  · subst here
    rw [duties_turnTo due] at found
    cases found
    rcases List.mem_append.mp mem with mem | mem
    · exact .inl mem
    · exact .inr ⟨_, due, List.mem_cons_of_mem duty mem⟩
  · rw [turnTo, List.getElem?_set_ne here] at found
    exact .inr ⟨duties, found, mem⟩

theorem hasDuty_of_turn (new : List Duty) (later : (s.turnTo thread (new ++ rest)).HasDuty wanted) :
    wanted ∈ new ∨ s.HasDuty wanted := by
  obtain ⟨duties, mem, inside⟩ := later
  obtain ⟨i, found⟩ := List.mem_iff_getElem?.mp mem
  refine (mem_of_turn due found inside).imp_right ?_
  rintro ⟨earlier, found, inside⟩
  exact ⟨earlier, List.mem_of_getElem? found, inside⟩

theorem hasDuty_turn (has : s.HasDuty wanted) (other : duty ≠ wanted) :
    (s.turnTo thread (new ++ rest)).HasDuty wanted := by
  obtain ⟨duties, mem, inside⟩ := has
  obtain ⟨i, found⟩ := List.mem_iff_getElem?.mp mem
  by_cases here : thread = i
  · subst here
    cases due.symm.trans found
    have left := (List.mem_cons.mp inside).resolve_left other.symm
    exact ⟨_, List.mem_of_getElem? (duties_turnTo due _), List.mem_append_right new left⟩
  · refine ⟨duties, List.mem_of_getElem? (i := i) ?_, inside⟩
    rw [turnTo, List.getElem?_set_ne here, found]

end Turn

/-! ### Runs -/

theorem run_concat (s : Threads) (before : List Happening) (h : Happening) :
    s.run (before ++ [h]) = (s.run before).bind fun t => t.step h := by
  simp [run, List.foldlM_append]

theorem Move.reaches (move : Move s h t) : s.Reaches t := by
  refine ⟨[h], ?_⟩
  rw [run, List.foldlM_cons, move.steps]
  rfl

theorem Reaches.trans (first : s.Reaches t) (next : t.Reaches u) : s.Reaches u := by
  obtain ⟨before, reached⟩ := first
  obtain ⟨after, later⟩ := next
  refine ⟨before ++ after, ?_⟩
  rw [run, List.foldlM_append, ← run, reached]
  exact later

/-- Whether something is so of every state that is passed while one thing after another happens. -/
def Throughout (P : Threads → Prop) (s : Threads) (happenings : List Happening) : Prop :=
  ∀ before t, before <+: happenings → s.run before = some t → P t

/-- Whether something is so of everything that happens and the state that it happens in. -/
def AtEach (P : Threads → Happening → Prop) (s : Threads) (happenings : List Happening) : Prop :=
  ∀ before h t, before ++ [h] <+: happenings → s.run before = some t → P t h

/-- What holds at first, and is kept by whatever happens as it should, holds throughout. -/
theorem AtEach.throughout {P : Threads → Prop} {Q : Threads → Happening → Prop}
    {happenings : List Happening} (asDue : s.AtEach Q happenings) (first : P s)
    (kept : ∀ t h u, Move t h u → Q t h → P t → P u) : s.Throughout P happenings := by
  intro before
  -- from the last happening back, since what is due then is asked of the state it happens in
  induction before using List.reverseRecOn with
  | nil =>
    intro t _ reached
    cases reached
    exact first
  | append_singleton before h ih =>
    intro u inside reached
    rw [run_concat, Option.bind_eq_some_iff] at reached
    obtain ⟨t, passed, steps⟩ := reached
    have earlier : before <+: happenings := (List.prefix_append before [h]).trans inside
    exact kept t h u (step_moves steps) (asDue before h t inside passed) (ih t earlier passed)

/-- What holds at first and is kept by all that can happen holds of every state that is reached. -/
theorem Reaches.invariant {P : Threads → Prop} (reaches : s.Reaches u) (first : P s)
    (kept : ∀ t h u, Move t h u → P t → P u) : P u := by
  obtain ⟨happenings, reached⟩ := reaches
  have unconditional : s.AtEach (fun _ _ => True) happenings := fun _ _ _ _ _ => trivial
  exact unconditional.throughout first (fun t h u move _ => kept t h u move) happenings u
    List.prefix_rfl reached

/-! ### Runs of one worker -/

def oneChild (fate : Fate) (tracked : List (Nat × Nat)) (isClosed : Bool) : ProcessTable where
  children := [{ Child.start 0 {} with fate }]
  tracked
  isClosed

/-- The duties of all threads where those of the ending thread and of one worker are set. -/
def meeting (workers : List (List Duty)) (i : Nat) (ending working : List Duty) : List (List Duty) :=
  ending :: workers.set i working

section Meeting

variable {workers : List (List Duty)} {i : Nat} {ending working rest : List Duty}
  {limit : Option Nat} {tracked : List (Nat × Nat)} {isClosed : Bool}

theorem meeting_set (later : List Duty) :
    (meeting workers i ending working).set (i + 1) later = meeting workers i ending later := by
  simp [meeting]

variable (inside : i < workers.length)

include inside

theorem meeting_due : (meeting workers i ending working)[i + 1]? = some working := by
  simp [meeting, inside]

/-- A worker that looks after a child which has ended signals and reaps it, whatever another thread
is bound to do. -/
theorem worker_reaps :
    Reaches ⟨oneChild (.exited 0) tracked isClosed,
        meeting workers i ending (Duty.attending 0 (Task.supervision limit) ++ rest), []⟩
      ⟨oneChild (.reaped 0) tracked isClosed,
        meeting workers i ending (Duty.attending 0 [.unregister] ++ rest), [⟨0, .kill, false⟩]⟩ := by
  refine ⟨[.act (i + 1), .act (i + 1), .act (i + 1), .act (i + 1)], ?_⟩
  simp [run, step, act, meeting_due inside, attend, turnTo, meeting_set, Task.supervision,
    Duty.attending, hasExited, oneChild, ProcessTable.child?, ProcessTable.isReaped,
    ProcessTable.change, Child.hasExited, Child.start, Child.returncode, Child.reap]

end Meeting

/-- A worker can start the first child before anything else happens. -/
theorem reaches_started {workers : List (List (Option Nat))} {i : Nat} {limit : Option Nat}
    {more : List (Option Nat)} (found : workers[i]? = some (limit :: more)) :
    (ofWorkers workers).Reaches ⟨oneChild .running [(0, 0)] false,
      meeting (workers.map Duty.work) i Duty.shutdown
        (Duty.attending 0 (Task.supervision limit) ++ Duty.work more), []⟩ := by
  have due : (ofWorkers workers).duties[i + 1]? = some (.spawn limit :: Duty.work more) := by
    rw [ofWorkers, List.getElem?_cons_succ, List.getElem?_map, found]
    rfl
  exact (Move.start due rfl rfl : Move _ (.start (i + 1) 0) _).reaches

end Threads
end LintCorpus
