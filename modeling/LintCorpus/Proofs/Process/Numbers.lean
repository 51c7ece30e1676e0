import LintCorpus.Proofs.Process.Order
import Mathlib.Data.List.Perm.Subperm

/-!
Which children hold which numbers, and who forgets them. A child holds its number until it is
reaped. Its worker forgets the number later, and by then a child of another worker may hold it. A
worker by itself starts a child only after the one before has been reaped and forgotten.
-/
namespace LintCorpus

theorem Child.reap_pid (c : Child) : c.reap.pid = c.pid := by
  unfold Child.reap
  split <;> rfl

theorem Child.returncode_of_reap {c : Child} (unreaped : c.reap.returncode = none) :
    c.returncode = none := by
  unfold Child.reap at unreaped
  split at unreaped
  · cases unreaped
  · exact unreaped

namespace ProcessTable

variable {t : ProcessTable} {pid position k : Nat} {entry : Nat × Nat} {entries : List (Nat × Nat)}

theorem mem_trackIn_self (pid position : Nat) (entries : List (Nat × Nat)) :
    (pid, position) ∈ trackIn pid position entries := by
  induction entries with
  | nil => exact List.mem_cons_self
  | cons entry rest ih =>
    rw [trackIn]
    split_ifs
    · exact List.mem_cons_self
    · exact List.mem_cons_of_mem entry ih

theorem mem_trackIn_of_ne (mem : entry ∈ entries) (other : entry.1 ≠ pid) :
    entry ∈ trackIn pid position entries := by
  induction entries with
  | nil => cases mem
  | cons first rest ih =>
    rw [trackIn]
    rcases List.mem_cons.mp mem with rfl | mem
    · rw [if_neg other]
      exact List.mem_cons_self
    · split_ifs
      · exact List.mem_cons_of_mem _ mem
      · exact List.mem_cons_of_mem _ (ih mem)

theorem mem_trackIn (mem : entry ∈ trackIn pid position entries) :
    entry = (pid, position) ∨ entry ∈ entries := by
  induction entries with
  | nil => exact .inl (List.mem_singleton.mp mem)
  | cons first rest ih =>
    rw [trackIn] at mem
    split_ifs at mem
    · exact (List.mem_cons.mp mem).imp_right (List.mem_cons_of_mem first)
    · rcases List.mem_cons.mp mem with rfl | mem
      · exact .inr List.mem_cons_self
      · exact (ih mem).imp_right (List.mem_cons_of_mem first)

theorem mem_unregister {c : Child} (found : t.child? k = some c) :
    entry ∈ (t.unregister k).tracked ↔ entry ∈ t.tracked ∧ entry.1 ≠ c.pid := by
  simp [unregister, found]

theorem unregister_tracked_subset : (t.unregister k).tracked ⊆ t.tracked := by
  intro entry mem
  unfold unregister at mem
  split at mem
  · exact (List.mem_filter.mp mem).1
  · exact mem

/-- The number of a child that was started and has not been reaped. -/
def Holds (t : ProcessTable) (k pid : Nat) : Prop :=
  ∃ c, t.child? k = some c ∧ c.pid = pid ∧ c.returncode = none

theorem holds_change {f : Child → Child} (pids : ∀ c, (f c).pid = c.pid)
    (unreaped : ∀ c, t.child? position = some c → (f c).returncode = none → c.returncode = none)
    (holds : (t.change position f).Holds k pid) : t.Holds k pid := by
  obtain ⟨c, found, number, none⟩ := holds
  rw [child?_change] at found
  split_ifs at found with here
  · obtain ⟨d, earlier, rfl⟩ := Option.map_eq_some_iff.mp found
    exact ⟨d, earlier, (pids d).symm.trans number, unreaped d (here ▸ earlier) none⟩
  · exact ⟨c, found, number, none⟩

theorem holds_add {b : Behaviour} {new : Nat} (holds : (t.add new b).Holds k pid) :
    k = t.children.length ∧ pid = new ∨ t.Holds k pid := by
  obtain ⟨c, found, number, none⟩ := holds
  rw [child?_add] at found
  split_ifs at found with last
  · cases found
    exact .inl ⟨last, number.symm⟩
  · exact .inr ⟨c, found, number, none⟩

theorem exists_holds (inside : k < t.children.length) (unreaped : t.isReaped k = false) :
    ∃ pid, t.Holds k pid := by
  have found : t.child? k = some t.children[k] := List.getElem?_eq_getElem inside
  rw [isReaped, found] at unreaped
  exact ⟨_, _, found, rfl, by simpa using unreaped⟩

theorem holds_reap (holds : (t.change position Child.reap).Holds k pid) : t.Holds k pid :=
  holds_change Child.reap_pid (fun _ _ => Child.returncode_of_reap) holds

theorem holds_unregister : (t.unregister position).Holds k pid ↔ t.Holds k pid := by
  rw [Holds, child?_unregister, Holds]

theorem Holds.unreaped (holds : t.Holds k pid) : t.isReaped k = false := by
  obtain ⟨c, found, -, unreaped⟩ := holds
  simp [isReaped, found, unreaped]

/-- Entries stand under the numbers of their children. -/
def Numbered (t : ProcessTable) : Prop :=
  ∀ entry ∈ t.tracked, ∃ c, t.child? entry.2 = some c ∧ c.pid = entry.1

theorem Numbered.change (numbered : t.Numbered) {f : Child → Child} (pids : ∀ c, (f c).pid = c.pid) :
    (t.change position f).Numbered := by
  intro entry mem
  obtain ⟨c, found, number⟩ := numbered entry mem
  rw [child?_change, found]
  split_ifs
  · exact ⟨f c, rfl, (pids c).trans number⟩
  · exact ⟨c, rfl, number⟩

theorem Numbered.add (numbered : t.Numbered) (pid : Nat) (b : Behaviour) :
    (t.add pid b).Numbered := by
  intro entry mem
  rw [child?_add]
  rcases mem_trackIn mem with rfl | mem
  · exact ⟨Child.start pid b, if_pos rfl, rfl⟩
  · obtain ⟨c, found, number⟩ := numbered entry mem
    have inside : entry.2 < t.children.length := (List.getElem?_eq_some_iff.mp found).1
    exact ⟨c, by rw [if_neg (Nat.ne_of_lt inside), found], number⟩

theorem Numbered.unregister (numbered : t.Numbered) : (t.unregister k).Numbered := by
  intro entry mem
  rw [child?_unregister]
  exact numbered entry (unregister_tracked_subset mem)

end ProcessTable

/-- Whether a thread with some duties forgets or starts children only when none holds a number,
where some do so far. -/
def Settles (holding : Nat → Prop) : List Duty → Prop
  | [] => True
  | .spawn _ :: rest => (∀ k, ¬holding k) ∧ Settles holding rest
  | .attend _ .unregister :: rest => (∀ k, ¬holding k) ∧ Settles holding rest
  | .attend k .reap :: rest => Settles (fun j => j ≠ k ∧ holding j) rest
  | _ :: rest => Settles holding rest

namespace Settles

variable {P Q : Nat → Prop} {k : Nat} {tasks : List Task} {rest : List Duty}

theorem anti {duties : List Duty} (settles : Settles P duties) (implies : ∀ j, Q j → P j) :
    Settles Q duties := by
  induction duties generalizing P Q with
  | nil => trivial
  | cons duty rest ih =>
    have none (never : ∀ j, ¬P j) : ∀ j, ¬Q j := fun j holds => never j (implies j holds)
    cases duty with
    | spawn => exact ⟨none settles.1, ih settles.2 implies⟩
    | attend k task =>
      cases task with
      | unregister => exact ⟨none settles.1, ih settles.2 implies⟩
      | reap =>
        exact ih (P := fun j => j ≠ k ∧ P j) settles fun j => And.imp_right (implies j)
      | unlessReaped | signal | await => exact ih (P := P) settles implies
    | close | drain => exact ih (P := P) settles implies

theorem attending_ending (ending : Task.AreEnding tasks) (settles : Settles P rest) :
    Settles P (Duty.attending k tasks ++ rest) := by
  rcases ending with rfl | ⟨grace, rfl⟩ <;> exact settles

theorem tooLate (late : tasks = [] ∨ tasks = Task.termination Task.defaultGrace)
    (settles : Settles P rest) : Settles P (Duty.attending k tasks ++ rest) := by
  rcases late with rfl | rfl
  · exact settles
  · exact settles.anti fun j holds => holds.2

theorem supervision {limit : Option Nat} (settles : Settles P (.spawn limit :: rest))
    (started : ∀ j, Q j → j = k ∨ P j) :
    Settles Q (Duty.attending k (Task.supervision limit) ++ rest) := by
  have none : ∀ j, ¬(j ≠ k ∧ Q j) := fun j ⟨other, holds⟩ =>
    settles.1 j ((started j holds).resolve_left other)
  exact ⟨none, settles.2.anti fun j holds => (none j holds).elim⟩

theorem endings (t : ProcessTable) (settles : Settles P rest) : Settles P (t.endings ++ rest) := by
  unfold ProcessTable.endings
  induction t.tracked.map Prod.snd with
  | nil => exact settles
  | cons k positions ih =>
    rw [List.flatMap_cons, List.append_assoc]
    exact tooLate (.inr rfl) ih

theorem spawns (limits : List (Option Nat)) (none : ∀ j, ¬P j) : Settles P (Duty.work limits) := by
  induction limits with
  | nil => trivial
  | cons limit limits ih => exact ⟨none, ih⟩

end Settles

def Duty.isNeutral : Duty → Bool
  | .spawn _ | .attend _ .unregister => false
  | _ => true

namespace Duty

theorem isNeutral_ending {k : Nat} {tasks : List Task} (ending : Task.AreEnding tasks) :
    ∀ d ∈ attending k tasks, d.isNeutral = true := by
  rcases ending with rfl | ⟨grace, rfl⟩ <;> simp [attending, isNeutral]

theorem isNeutral_tooLate {k : Nat} {tasks : List Task}
    (late : tasks = [] ∨ tasks = Task.termination Task.defaultGrace) :
    ∀ d ∈ attending k tasks, d.isNeutral = true := by
  rcases late with rfl | rfl <;> simp [attending, isNeutral, Task.termination]

theorem isNeutral_endings (t : ProcessTable) : ∀ d ∈ t.endings, d.isNeutral = true := by
  intro d mem
  obtain ⟨k, -, mem⟩ := List.mem_flatMap.mp mem
  exact isNeutral_tooLate (.inr rfl) d mem

end Duty

namespace Threads

variable {s t u : Threads} {h : Happening} {thread i k : Nat} {duty : Duty} {rest new : List Duty}

theorem holds_eq_true {pid : Nat} : s.holds pid = true ↔ ∃ k, s.table.Holds k pid := by
  simp only [holds, List.any_eq_true, Bool.and_eq_true, beq_iff_eq, Option.isNone_iff_eq_none,
    ProcessTable.Holds, ProcessTable.child?]
  constructor
  · rintro ⟨c, mem, number, unreaped⟩
    obtain ⟨k, found⟩ := List.mem_iff_getElem?.mp mem
    exact ⟨k, c, found, number, unreaped⟩
  · rintro ⟨k, c, found, number, unreaped⟩
    exact ⟨c, List.mem_of_getElem? found, number, unreaped⟩

theorem holds_exit {code : Int} {j pid : Nat} (running : s.hasExited j = false)
    (holds : (s.table.change j fun c => { c with fate := .exited code }).Holds k pid) :
    s.table.Holds k pid := by
  refine ProcessTable.holds_change (f := fun c => { c with fate := .exited code }) (fun _ => rfl)
    (fun c found _ => ?_) holds
  rw [hasExited, found] at running
  exact returncode_of_running running

/-- A thread forgets what is tracked under a number while a child that was not reaped holds it. -/
def Forgets (s : Threads) : Happening → Prop
  | .act thread => ∃ k rest c, s.duties[thread]? = some (.attend k .unregister :: rest) ∧
      s.table.child? k = some c ∧ s.holds c.pid = true
  | _ => False

/-- Only one thread starts and forgets children, and does either only when none holds a number. -/
structure Solo (i : Nat) (s : Threads) : Prop where
  others : ∀ n ≠ i, ∀ list, s.duties[n]? = some list → ∀ d ∈ list, d.isNeutral = true
  own : ∀ list, s.duties[i]? = some list → Settles (fun k => ∃ pid, s.table.Holds k pid) list

namespace Solo

/-- The thread goes on with other duties, or another one does without starting or forgetting. -/
theorem turn (solo : s.Solo i) (new : List Duty) (due : s.duties[thread]? = some (duty :: rest))
    (turned : t.duties = (s.turnTo thread (new ++ rest)).duties)
    (holds : ∀ k pid, t.table.Holds k pid → s.table.Holds k pid)
    (added : ∀ d ∈ new, d.isNeutral = true)
    (settles : Settles (fun k => ∃ pid, s.table.Holds k pid) (duty :: rest) →
      Settles (fun k => ∃ pid, t.table.Holds k pid) (new ++ rest)) : t.Solo i where
  others := by
    intro n other list found d mem
    rw [turned] at found
    rcases mem_of_turn due found mem with mem | ⟨earlier, found, mem⟩
    · exact added d mem
    · exact solo.others n other earlier found d mem
  own := by
    intro list found
    rw [turned] at found
    by_cases here : thread = i
    · subst here
      rw [duties_turnTo due] at found
      cases found
      exact settles (solo.own _ due)
    · rw [turnTo, List.getElem?_set_ne here] at found
      exact (solo.own list found).anti fun k => Exists.imp (holds k)

theorem moves (solo : s.Solo i) (sound : s.Sound) (move : Move s h t) : t.Solo i := by
  cases move with
  | refuse due => exact solo.turn [] due rfl (fun _ _ => id) nofun And.right
  | close due | signal due => exact solo.turn [] due rfl (fun _ _ => id) nofun id
  | skip due => exact solo.turn [] due rfl (fun _ _ => id) nofun id
  | await due => exact solo.turn [] due rfl (fun _ _ => id) nofun id
  | drain due =>
    exact solo.turn _ due rfl (fun _ _ => id) (Duty.isNeutral_endings _)
      fun settles => Settles.endings _ settles
  | check due =>
    have ending := (sound.due due).1
    exact solo.turn _ due rfl (fun _ _ => id) (Duty.isNeutral_ending ending)
      fun settles => Settles.attending_ending ending settles
  | giveUp due =>
    have late := (sound.due due).1
    exact solo.turn _ due rfl (fun _ _ => id) (Duty.isNeutral_tooLate late)
      fun settles => Settles.tooLate late settles
  | @reap thread k rest due exited =>
    refine solo.turn [] due rfl (fun _ _ => ProcessTable.holds_reap) nofun fun settles => ?_
    -- the child that is reaped is the one that the rest of the duties does not count any more
    have later : Settles (fun j => j ≠ k ∧ ∃ pid, s.table.Holds j pid) rest := settles
    refine later.anti fun j ⟨pid, holds⟩ => ⟨?_, pid, ProcessTable.holds_reap holds⟩
    rintro rfl
    have reaped := isReaped_reap exited
    rw [holds.unreaped] at reaped
    cases reaped
  | unregister due =>
    refine solo.turn [] due rfl (fun _ _ => ProcessTable.holds_unregister.mp) nofun fun settles => ?_
    exact settles.2.anti fun j ⟨pid, holds⟩ => ⟨pid, ProcessTable.holds_unregister.mp holds⟩
  | @start thread pid limit rest due isOpen free =>
    have here : thread = i := by
      by_contra other
      cases solo.others thread other _ due _ List.mem_cons_self
    subst here
    refine ⟨fun n other list found => ?_, fun list found => ?_⟩
    · rw [turnTo, List.getElem?_set_ne (Ne.symm other)] at found
      exact solo.others n other list found
    · rw [duties_turnTo due] at found
      cases found
      have settles := solo.own _ due
      refine settles.supervision fun j held => ?_
      obtain ⟨number, holds⟩ := held
      exact (ProcessTable.holds_add holds).imp And.left fun held => ⟨number, held⟩
  | exit inside running =>
    refine ⟨solo.others, fun list found => (solo.own list found).anti fun j => ?_⟩
    exact Exists.imp fun pid => holds_exit running

theorem remembers (solo : s.Solo i) : ¬s.Forgets h := by
  intro forgets
  cases h with
  | act thread =>
    obtain ⟨k, rest, c, due, -, held⟩ := forgets
    by_cases here : thread = i
    · subst here
      obtain ⟨none, -⟩ := solo.own _ due
      obtain ⟨j, holds⟩ := holds_eq_true.mp held
      exact none j ⟨_, holds⟩
    · cases solo.others thread here _ due _ List.mem_cons_self
  | giveUp | start | exit => exact forgets

theorem first {workers : List (List (Option Nat))}
    (idle : ∀ n limits, n + 1 ≠ i → workers[n]? = some limits → limits = []) :
    (ofWorkers workers).Solo i where
  others := by
    intro n other list found d mem
    cases n with
    | zero =>
      cases found
      simp only [Duty.shutdown, List.mem_cons, List.not_mem_nil, or_false] at mem
      rcases mem with rfl | rfl <;> rfl
    | succ n =>
      have started : (workers.map Duty.work)[n]? = some list := found
      rw [List.getElem?_map] at started
      obtain ⟨limits, worker, rfl⟩ := Option.map_eq_some_iff.mp started
      rw [idle n limits other worker] at mem
      cases mem
  own := by
    intro list found
    cases i with
    | zero =>
      cases found
      trivial
    | succ n =>
      obtain ⟨limits, -, rfl⟩ := List.mem_map.mp (List.mem_of_getElem? found)
      exact Settles.spawns limits fun j ⟨pid, c, found, _⟩ => by cases found

end Solo

/-- With at most one worker that starts anything, no number is forgotten that a child holds. -/
theorem remembers_of_pairwise {workers : List (List (Option Nat))}
    (alone : workers.Pairwise fun a b => a = [] ∨ b = []) (reaches : (ofWorkers workers).Reaches s) :
    ¬s.Forgets h := by
  obtain ⟨i, idle⟩ : ∃ i, ∀ n limits, n + 1 ≠ i → workers[n]? = some limits → limits = [] := by
    rw [List.pairwise_iff_getElem] at alone
    by_cases started : ∃ (m : Nat) (limits : _), workers[m]? = some limits ∧ limits ≠ []
    · obtain ⟨m, limits, found, busy⟩ := started
      obtain ⟨inside, rfl⟩ := List.getElem?_eq_some_iff.mp found
      refine ⟨m + 1, fun n limits other found => ?_⟩
      obtain ⟨within, rfl⟩ := List.getElem?_eq_some_iff.mp found
      rcases Nat.lt_or_gt_of_ne fun same => other (congrArg (· + 1) same) with before | after
      · exact (alone n m within inside before).resolve_right busy
      · exact (alone m n inside within after).resolve_left busy
    · push Not at started
      exact ⟨0, fun n limits _ found => started n limits found⟩
  have both := reaches.invariant (P := fun s => s.Sound ∧ s.Solo i)
    ⟨Sound.first workers, Solo.first idle⟩
    fun _ _ _ move ⟨sound, solo⟩ => ⟨sound.moves move, solo.moves sound move⟩
  exact both.2.remembers

/-- With two workers that start something, one can forget the number of the other's child: it is
started after the first one's child was reaped, and is given the same number. -/
theorem exists_forgets {workers : List (List (Option Nat))} {i j : Nat} {first second : Option Nat}
    {more others : List (Option Nat)} (other : i ≠ j) (found : workers[i]? = some (first :: more))
    (also : workers[j]? = some (second :: others)) :
    ∃ s h, (ofWorkers workers).Reaches s ∧ s.HasDuty .drain ∧ s.Forgets h := by
  have inside : i < (workers.map Duty.work).length := by
    rw [List.length_map]
    exact (List.getElem?_eq_some_iff.mp found).1
  have started := reaches_started found
  have ended := started.trans (u := ⟨oneChild (.exited 0) [(0, 0)] false,
    meeting (workers.map Duty.work) i Duty.shutdown
      (Duty.attending 0 (Task.supervision first) ++ Duty.work more), []⟩) ⟨[.exit 0 0], rfl⟩
  have reaped := ended.trans (worker_reaps inside)
  have waiting : (meeting (workers.map Duty.work) i Duty.shutdown
      (Duty.attending 0 [.unregister] ++ Duty.work more))[j + 1]? =
      some (.spawn second :: Duty.work others) := by
    rw [meeting, List.getElem?_cons_succ, List.getElem?_set_ne other, List.getElem?_map, also]
    rfl
  have reused := reaped.trans (Move.start waiting rfl rfl : Move _ (.start (j + 1) 0) _).reaches
  refine ⟨_, .act (i + 1), reused, ⟨Duty.shutdown, List.mem_cons_self, by simp [Duty.shutdown]⟩, 0,
    Duty.work more, _, ?_, rfl, rfl⟩
  rw [turnTo, List.getElem?_set_ne (by omega)]
  exact meeting_due inside

end Threads
end LintCorpus
