import LintCorpus.Proofs.Process.Numbers

/-!
Which children the table loses. An entry of the table is found by the number of a child, and a
number is free again once its child has been reaped, which is before that child is forgotten. A
child that is started in between takes the number and the entry, and loses the entry when the other
child is forgotten. Nothing else makes the table lose a child that has not been reaped.
-/
namespace LintCorpus

def Task.sendsSignal : Task → Bool
  | .unlessReaped _ | .signal _ => true
  | _ => false

theorem Task.AreEnding.sendsSignal {tasks : List Task} (ending : Task.AreEnding tasks) :
    ∃ task ∈ tasks, task.sendsSignal = true := by
  rcases ending with rfl | ⟨grace, rfl⟩
  · exact ⟨.signal .kill, List.mem_cons_self, rfl⟩
  · exact ⟨.signal .term, List.mem_cons_self, rfl⟩

theorem Duty.drain_notMem_attending (k : Nat) (tasks : List Task) :
    Duty.drain ∉ Duty.attending k tasks := by
  simp [attending]

theorem Duty.drain_notMem_endings (t : ProcessTable) : Duty.drain ∉ t.endings := by
  simp [ProcessTable.endings, attending]

namespace Threads

variable {s t u : Threads} {h : Happening} {thread k : Nat} {duty : Duty} {rest new : List Duty}

def IsToDrain (s : Threads) : Prop := s.HasDuty .drain

/-- Until the table is drained it tracks each child that has not been reaped. -/
def TracksUnreaped (s : Threads) : Prop :=
  s.IsToDrain → ∀ k < s.table.children.length, s.table.isReaped k = false → s.tracks k = true

def IsEnded (s : Threads) : Prop := s.duties[0]? = some []

/-! ### Draining the table -/

/-- A thread does one of its duties, and may get others for it, but none to drain the table. -/
theorem Move.turns (move : Move s h t) :
    t.duties = s.duties ∨ ∃ thread duty rest new, s.duties[thread]? = some (duty :: rest) ∧
      t.duties = (s.turnTo thread (new ++ rest)).duties ∧ Duty.drain ∉ new ∧
      (duty = .close → new = [] ∧ t.table.isClosed = true) ∧
      (duty = .drain → t = { s.turnTo thread (s.table.endings ++ rest) with
        table := { s.table with tracked := [] } }) := by
  cases move with
  | refuse due | skip due | signal due | await due | reap due | unregister due =>
    exact .inr ⟨_, _, _, [], due, rfl, List.not_mem_nil, nofun, nofun⟩
  | check due | giveUp due | start due =>
    exact .inr ⟨_, _, _, _, due, rfl, Duty.drain_notMem_attending _ _, nofun, nofun⟩
  | close due => exact .inr ⟨_, _, _, [], due, rfl, List.not_mem_nil, fun _ => ⟨rfl, rfl⟩, nofun⟩
  | drain due =>
    exact .inr ⟨_, _, _, _, due, rfl, Duty.drain_notMem_endings _, nofun, fun _ => rfl⟩
  | exit => exact .inl rfl

theorem isToDrain_congr (same : t.duties = s.duties) : t.IsToDrain ↔ s.IsToDrain := by
  rw [IsToDrain, HasDuty, same, IsToDrain, HasDuty]

theorem Move.isToDrain (move : Move s h t) (later : t.IsToDrain) : s.IsToDrain := by
  rcases move.turns with same | ⟨thread, duty, rest, new, due, turned, added, -⟩
  · exact (isToDrain_congr same).mp later
  · exact (hasDuty_of_turn due new ((isToDrain_congr turned).mp later)).resolve_left added

theorem Move.closed (move : Move s h t) (closed : s.table.isClosed = true) :
    t.table.isClosed = true ∧ (s.table.tracked = [] → t.table.tracked = []) := by
  cases move with
  | refuse | skip | check | signal | await | giveUp | reap | exit => exact ⟨closed, id⟩
  | close => exact ⟨rfl, id⟩
  | drain => exact ⟨closed, fun _ => rfl⟩
  | @unregister thread k rest due =>
    refine ⟨(s.table.isClosed_unregister k).trans closed, fun empty => ?_⟩
    exact List.eq_nil_of_subset_nil (empty ▸ ProcessTable.unregister_tracked_subset)
  | start due isOpen =>
    rw [closed] at isOpen
    cases isOpen

/-- How far the thread that ends the run has come. No other thread drains the table, and once it is
drained it is empty and nothing more is started. -/
structure Staged (s : Threads) : Prop where
  workers : ∀ i duties, s.duties[i + 1]? = some duties → Duty.drain ∉ duties
  ending : s.duties[0]? = some [.close, .drain] ∨
    s.duties[0]? = some [.drain] ∧ s.table.isClosed = true ∨
    ¬s.IsToDrain ∧ s.table.isClosed = true ∧ s.table.tracked = []

namespace Staged

theorem first (workers : List (List (Option Nat))) : (ofWorkers workers).Staged where
  workers := by
    intro i duties found drains
    obtain ⟨limits, -, rfl⟩ := List.mem_map.mp (List.mem_of_getElem? found)
    simp [Duty.work] at drains
  ending := .inl rfl

/-- Only the thread that ends the run drains the table, after it has closed it, and is done then but
for what that brings. -/
theorem drain_due (staged : s.Staged) (due : s.duties[thread]? = some (.drain :: rest)) :
    thread = 0 ∧ rest = [] ∧ s.table.isClosed = true := by
  cases thread with
  | zero =>
    rcases staged.ending with before | ⟨before, closed⟩ | ⟨never, -⟩
    · cases before.symm.trans due
    · cases before.symm.trans due
      exact ⟨rfl, rfl, closed⟩
    · exact (never (hasDuty_due due)).elim
  | succ i => exact (staged.workers i _ due List.mem_cons_self).elim

theorem workers_turn (staged : s.Staged) (due : s.duties[thread]? = some (duty :: rest))
    (added : Duty.drain ∉ new) {i : Nat} {duties : List Duty}
    (found : (s.turnTo thread (new ++ rest)).duties[i + 1]? = some duties) : Duty.drain ∉ duties := by
  intro drains
  obtain ⟨earlier, found, drains⟩ := (mem_of_turn due found drains).resolve_left added
  exact staged.workers i earlier found drains

theorem drained (staged : s.Staged) (due : s.duties[thread]? = some (.drain :: rest))
    (added : Duty.drain ∉ new) : ¬(s.turnTo thread (new ++ rest)).IsToDrain := by
  rintro ⟨duties, mem, drains⟩
  obtain ⟨i, found⟩ := List.mem_iff_getElem?.mp mem
  cases i with
  | zero =>
    obtain ⟨rfl, rfl, -⟩ := staged.drain_due due
    rw [duties_turnTo due] at found
    cases found
    exact added (by simpa using drains)
  | succ i => exact staged.workers_turn due added found drains

theorem ending_kept (staged : s.Staged) (move : Move s h t) (duties : t.duties[0]? = s.duties[0]?) :
    t.duties[0]? = some [.close, .drain] ∨
      t.duties[0]? = some [.drain] ∧ t.table.isClosed = true ∨
      ¬t.IsToDrain ∧ t.table.isClosed = true ∧ t.table.tracked = [] := by
  rw [duties]
  rcases staged.ending with before | ⟨before, closed⟩ | ⟨never, closed, empty⟩
  · exact .inl before
  · exact .inr (.inl ⟨before, (move.closed closed).1⟩)
  · exact .inr (.inr ⟨mt move.isToDrain never, (move.closed closed).1, (move.closed closed).2 empty⟩)

theorem moves (staged : s.Staged) (move : Move s h t) : t.Staged := by
  rcases move.turns with same | ⟨thread, duty, rest, new, due, turned, added, closes, drains⟩
  · exact ⟨same ▸ staged.workers, staged.ending_kept move (by rw [same])⟩
  refine ⟨fun i duties found => staged.workers_turn due added (turned ▸ found), ?_⟩
  cases thread with
  | succ i =>
    refine staged.ending_kept move ?_
    rw [turned, turnTo, List.getElem?_set_ne (by omega)]
  | zero =>
    rcases staged.ending with before | ⟨before, closed⟩ | ⟨never, closed, empty⟩
    · cases before.symm.trans due
      obtain ⟨rfl, closed⟩ := closes rfl
      refine .inr (.inl ⟨?_, closed⟩)
      rw [turned, duties_turnTo due]
      rfl
    · cases before.symm.trans due
      have never := mt (isToDrain_congr turned).mp (staged.drained due added)
      exact .inr (.inr ⟨never, (move.closed closed).1, drains rfl ▸ rfl⟩)
    · have never := mt move.isToDrain never
      exact .inr (.inr ⟨never, (move.closed closed).1, (move.closed closed).2 empty⟩)

theorem closed (staged : s.Staged) (never : ¬s.IsToDrain) : s.table.isClosed = true := by
  rcases staged.ending with before | ⟨-, closed⟩ | ⟨-, closed, -⟩
  · exact (never ⟨_, List.mem_of_getElem? before, by simp⟩).elim
  · exact closed
  · exact closed

/-- Once the run is ended the table is empty and refuses what is to be started. -/
theorem isEnded (staged : s.Staged) (ended : s.IsEnded) :
    ¬s.IsToDrain ∧ s.table.tracked = [] ∧ ∀ thread pid, s.start thread pid = none := by
  rcases staged.ending with before | ⟨before, -⟩ | ⟨never, closed, empty⟩
  · cases before.symm.trans ended
  · cases before.symm.trans ended
  · refine ⟨never, empty, fun thread pid => ?_⟩
    unfold start
    split
    · simp [closed]
    · rfl

end Staged

theorem Move.numbered (move : Move s h t) (numbered : s.table.Numbered) : t.table.Numbered := by
  cases move with
  | refuse | close | skip | check | signal | await | giveUp => exact numbered
  | drain => exact fun _ => nofun
  | reap => exact numbered.change Child.reap_pid
  | exit => exact numbered.change fun _ => rfl
  | unregister => exact numbered.unregister
  | start => exact numbered.add _ _

/-! ### Children that are not lost -/

def IsDue (s : Threads) (thread k : Nat) : Prop :=
  ∃ duties task, s.duties[thread]? = some duties ∧ Duty.attend k task ∈ duties ∧
    task.sendsSignal = true

theorem isDue_turnTo {duties : List Duty} {task : Task} (due : s.duties[thread]? = some (duty :: rest))
    (mem : Duty.attend k task ∈ duties) (sends : task.sendsSignal = true) :
    (s.turnTo thread duties).IsDue thread k := by
  exact ⟨duties, task, duties_turnTo due duties, mem, sends⟩

theorem IsDue.turn {i : Nat} (isDue : s.IsDue i k) (new : List Duty)
    (due : s.duties[thread]? = some (duty :: rest)) :
    (∃ task, thread = i ∧ duty = .attend k task ∧ task.sendsSignal = true) ∨
      (s.turnTo thread (new ++ rest)).IsDue i k := by
  obtain ⟨duties, task, found, mem, sends⟩ := isDue
  by_cases here : thread = i
  · subst here
    cases due.symm.trans found
    rcases List.mem_cons.mp mem with rfl | mem
    · exact .inl ⟨task, rfl, rfl, sends⟩
    · exact .inr (isDue_turnTo due (List.mem_append_right new mem) sends)
  · refine .inr ⟨duties, task, ?_, mem, sends⟩
    rw [turnTo, List.getElem?_set_ne here, found]

/-- The table tracks each number that is held, and once it is drained each child has been signalled
or is about to be. -/
structure Kept (s : Threads) : Prop where
  tracked : s.IsToDrain → ∀ k pid, s.table.Holds k pid → (pid, k) ∈ s.table.tracked
  drained : ¬s.IsToDrain → ∀ k < s.table.children.length, s.hasSignalled k = true ∨ s.IsDue 0 k

theorem holder_tracked (move : Move s h t) (staged : s.Staged) (remembers : ¬s.Forgets h)
    (tracked : ∀ k pid, s.table.Holds k pid → (pid, k) ∈ s.table.tracked) (drains : t.IsToDrain)
    {pid : Nat} (holds : t.table.Holds k pid) : (pid, k) ∈ t.table.tracked := by
  cases move with
  | refuse | close | skip | check | signal | await | giveUp => exact tracked k pid holds
  | drain due => exact (staged.drained due (Duty.drain_notMem_endings _) drains).elim
  | reap => exact tracked k pid (ProcessTable.holds_reap holds)
  | exit inside running => exact tracked k pid (holds_exit running holds)
  | @unregister thread j rest due =>
    have held := ProcessTable.holds_unregister.mp holds
    have mem := tracked k pid held
    cases forgotten : s.table.child? j with
    | none => rwa [ProcessTable.unregister, forgotten]
    | some d =>
      -- only entries under the number of the forgotten child go, and nobody else holds that
      refine (ProcessTable.mem_unregister forgotten).mpr ⟨mem, fun same => remembers ?_⟩
      exact ⟨j, rest, d, due, forgotten, holds_eq_true.mpr ⟨k, same ▸ held⟩⟩
  | start due isOpen free =>
    rcases ProcessTable.holds_add holds with ⟨rfl, rfl⟩ | held
    · exact ProcessTable.mem_trackIn_self _ _ _
    · refine ProcessTable.mem_trackIn_of_ne (tracked k pid held) fun same => ?_
      subst same
      rw [holds_eq_true.mpr ⟨k, held⟩] at free
      cases free

/-- Once nothing is started any more a signal that is due to a child is sent or stays due, or the
child has been signalled before. -/
theorem signalled_or_due (move : Move s h t) (sound : s.Sound) (closed : s.table.isClosed = true)
    (never : ¬s.IsToDrain) (served : s.hasSignalled k = true ∨ s.IsDue 0 k) :
    t.hasSignalled k = true ∨ t.IsDue 0 k := by
  rcases served with done | isDue
  · exact .inl (move.hasSignalled done)
  cases move with
  | refuse due | close due | await due | reap due | unregister due =>
    rcases isDue.turn [] due with ⟨task, -, same, sends⟩ | later
    · cases same <;> cases sends
    · exact .inr later
  | giveUp due =>
    rcases isDue.turn _ due with ⟨task, -, same, sends⟩ | later
    · cases same
      cases sends
    · exact .inr later
  | skip due reaped =>
    rcases isDue.turn [] due with ⟨task, -, same, -⟩ | later
    · cases same
      exact .inl (sound.reaped k reaped)
    · exact .inr later
  | @check thread j tasks rest due unreaped =>
    rcases isDue.turn (Duty.attending j tasks) due with ⟨_, rfl, same, -⟩ | later
    · cases same
      obtain ⟨ending, -⟩ := sound.due due
      obtain ⟨task, mem, sends⟩ := ending.sendsSignal
      have added := List.mem_append_left rest (List.mem_map_of_mem (f := Duty.attend k) mem)
      exact .inr (isDue_turnTo due added sends)
    · exact .inr later
  | signal due =>
    rcases isDue.turn [] due with ⟨task, -, same, -⟩ | later
    · cases same
      exact .inl (by simp [hasSignalled])
    · exact .inr later
  | drain due => exact (never (hasDuty_due due)).elim
  | start due isOpen =>
    rw [closed] at isOpen
    cases isOpen
  | exit => exact .inr isDue

theorem isDue_drain (due : s.duties[thread]? = some (.drain :: rest)) {pid : Nat}
    (tracked : (pid, k) ∈ s.table.tracked) :
    (s.turnTo thread (s.table.endings ++ rest)).IsDue thread k := by
  have ends : ∃ tasks, Duty.attend k (.unlessReaped tasks) ∈ s.table.endings :=
    ⟨_, List.mem_flatMap.mpr ⟨k, List.mem_map.mpr ⟨_, tracked, rfl⟩, List.mem_cons_self⟩⟩
  obtain ⟨tasks, mem⟩ := ends
  exact isDue_turnTo due (List.mem_append_left rest mem) rfl

theorem Move.length (move : Move s h t) (closed : s.table.isClosed = true) :
    t.table.children.length = s.table.children.length := by
  cases move with
  | refuse | close | drain | skip | check | signal | await | giveUp => rfl
  | reap | exit => exact ProcessTable.length_change _ _ _
  | unregister => exact ProcessTable.length_unregister _ _
  | start due isOpen =>
    rw [closed] at isOpen
    cases isOpen

namespace Kept

theorem first (workers : List (List (Option Nat))) : (ofWorkers workers).Kept where
  tracked := by
    rintro - k pid ⟨c, found, -⟩
    cases found
  drained := by
    intro never
    exact (never ⟨Duty.shutdown, List.mem_cons_self, by simp [Duty.shutdown]⟩).elim

theorem moves (kept : s.Kept) (sound : s.Sound) (staged : s.Staged) (move : Move s h t)
    (remembers : s.IsToDrain → ¬s.Forgets h) : t.Kept := by
  refine ⟨fun later k pid holds => ?_, fun never k inside => ?_⟩
  · have drains := move.isToDrain later
    exact holder_tracked move staged (remembers drains) (kept.tracked drains) later holds
  by_cases drains : s.IsToDrain
  · rcases move.turns with same | ⟨thread, duty, rest, new, due, turned, added, -, drained⟩
    · exact (never ((isToDrain_congr same).mpr drains)).elim
    -- either the table is drained just now, or it is still to be
    by_cases drainsNow : duty = .drain
    · subst drainsNow
      obtain ⟨rfl, -, -⟩ := staged.drain_due due
      obtain rfl := drained rfl
      cases reaped : s.table.isReaped k with
      | true => exact .inl (sound.reaped k reaped)
      | false =>
        obtain ⟨pid, holds⟩ := ProcessTable.exists_holds inside reaped
        exact .inr (isDue_drain due (kept.tracked drains k pid holds))
    · exact (never ((isToDrain_congr turned).mpr (hasDuty_turn due drains drainsNow))).elim
  · have closed := staged.closed drains
    rw [move.length closed] at inside
    exact signalled_or_due move sound closed drains (kept.drained drains k inside)

end Kept

variable {workers : List (List (Option Nat))} {happenings : List Happening}

theorem tracks_eq_true : s.tracks k = true ↔ ∃ entry ∈ s.table.tracked, entry.2 = k := by
  simp [tracks]

theorem Kept.tracksUnreaped (kept : s.Kept) : s.TracksUnreaped := by
  intro drains k inside unreaped
  obtain ⟨pid, holds⟩ := ProcessTable.exists_holds inside unreaped
  exact tracks_eq_true.mpr ⟨_, kept.tracked drains k pid holds, rfl⟩

theorem Kept.hasSignalled (kept : s.Kept) (staged : s.Staged) (ended : s.IsEnded) :
    ∀ k < s.table.children.length, s.hasSignalled k = true := by
  intro k inside
  obtain ⟨never, -⟩ := staged.isEnded ended
  refine (kept.drained never k inside).resolve_right ?_
  rintro ⟨duties, task, found, mem, -⟩
  cases ended.symm.trans found
  cases mem

theorem lost_of_forgets (numbered : s.table.Numbered) (drains : s.IsToDrain) (forgets : s.Forgets h) :
    ∃ t, s.step h = some t ∧ ¬t.TracksUnreaped := by
  cases h with
  | act thread =>
    obtain ⟨k, rest, c, due, found, held⟩ := forgets
    obtain ⟨j, d, holder, number, unreaped⟩ := holds_eq_true.mp held
    have later : (s.turnTo thread ([] ++ rest)).IsToDrain := hasDuty_turn due drains nofun
    refine ⟨_, (Move.unregister due).steps, fun tracks => ?_⟩
    have inside : j < (s.table.unregister k).children.length := by
      rw [ProcessTable.length_unregister]
      exact (List.getElem?_eq_some_iff.mp holder).1
    have alive : (s.table.unregister k).isReaped j = false := by
      rw [ProcessTable.isReaped, ProcessTable.child?_unregister, holder]
      simp [unreaped]
    have tracked := tracks later j inside alive
    obtain ⟨entry, mem, rfl⟩ := tracks_eq_true.mp tracked
    obtain ⟨mem, other⟩ := (ProcessTable.mem_unregister found).mp mem
    obtain ⟨e, same, stands⟩ := numbered entry mem
    cases holder.symm.trans same
    exact other (stands.symm.trans number)
  | giveUp | start | exit => exact forgets.elim

/-- No child is lost: it is tracked as long as it has not been reaped, and when the run is ended it
has been signalled. -/
structure LosesNone (s : Threads) : Prop where
  tracked : s.TracksUnreaped
  signalled : s.IsEnded → ∀ k < s.table.children.length, s.hasSignalled k = true

/-- While no number is forgotten that a child holds no child is lost, and not otherwise. -/
theorem losesNone_iff (workers : List (List (Option Nat))) (happenings : List Happening) :
    (ofWorkers workers).Throughout LosesNone happenings ↔
      (ofWorkers workers).AtEach (fun s h => s.IsToDrain → ¬s.Forgets h) happenings := by
  constructor
  · intro kept before h s inside passed drains forgets
    have numbered : s.table.Numbered :=
      Reaches.invariant (P := fun s => s.table.Numbered) ⟨before, passed⟩ (fun _ => nofun)
        fun _ _ _ move numbered => move.numbered numbered
    obtain ⟨t, steps, lost⟩ := lost_of_forgets numbered drains forgets
    have reached : (ofWorkers workers).run (before ++ [h]) = some t := by
      rw [run_concat, passed]
      exact steps
    exact lost (kept (before ++ [h]) t inside reached).tracked
  · intro remembers before t inside reached
    have all := remembers.throughout (P := fun s => s.Sound ∧ s.Staged ∧ s.Kept)
      ⟨Sound.first workers, Staged.first workers, Kept.first workers⟩
      fun s h t move remembers ⟨sound, staged, kept⟩ =>
        ⟨sound.moves move, staged.moves move, kept.moves sound staged move remembers⟩
    obtain ⟨-, staged, kept⟩ := all before t inside reached
    exact ⟨kept.tracksUnreaped, kept.hasSignalled staged⟩

/-- For all workers, whatever happens: once the run is ended the table is empty and nothing is
started any more. No child is ever lost exactly if at most one worker starts any. And in everything
that can happen none is lost exactly if no thread, before the table is drained, forgets a number
that a child holds which has not been reaped. -/
theorem tracks_unreaped_iff (workers : List (List (Option Nat))) :
    (∀ s, (ofWorkers workers).Reaches s → s.IsEnded →
      s.table.size = 0 ∧ ∀ thread pid, s.start thread pid = none) ∧
    ((∀ s, (ofWorkers workers).Reaches s → s.LosesNone) ↔
      workers.Pairwise fun a b => a = [] ∨ b = []) ∧
    ∀ happenings, (ofWorkers workers).Throughout LosesNone happenings ↔
      (ofWorkers workers).AtEach (fun s h => s.IsToDrain → ¬s.Forgets h) happenings := by
  refine ⟨fun s reaches ended => ?_, ⟨fun kept => ?_, fun alone s reaches => ?_⟩,
    losesNone_iff workers⟩
  · have staged := reaches.invariant (Staged.first workers) fun _ _ _ move staged => staged.moves move
    obtain ⟨-, empty, refuses⟩ := staged.isEnded ended
    exact ⟨by rw [ProcessTable.size, empty]; rfl, refuses⟩
  · rw [List.pairwise_iff_getElem]
    intro i j inside within before
    by_contra busy
    rw [not_or] at busy
    obtain ⟨first, more, found⟩ := List.exists_cons_of_ne_nil busy.1
    obtain ⟨second, others, also⟩ := List.exists_cons_of_ne_nil busy.2
    obtain ⟨s, h, ⟨happenings, reached⟩, drains, forgets⟩ := exists_forgets (Nat.ne_of_lt before)
      (List.getElem?_eq_some_iff.mpr ⟨inside, found⟩) (List.getElem?_eq_some_iff.mpr ⟨within, also⟩)
    have throughout : (ofWorkers workers).Throughout LosesNone (happenings ++ [h]) :=
      fun before t _ reached => kept t ⟨before, reached⟩
    exact (losesNone_iff workers _).mp throughout happenings h s List.prefix_rfl reached drains forgets
  · obtain ⟨happenings, reached⟩ := reaches
    have remembers : (ofWorkers workers).AtEach (fun s h => s.IsToDrain → ¬s.Forgets h) happenings :=
      fun before h s _ passed _ => remembers_of_pairwise alone ⟨before, passed⟩
    exact (losesNone_iff workers happenings).mpr remembers happenings s List.prefix_rfl reached

/-- Two workers: the second one's child is given the number of the first one's, which has been
reaped and is forgotten only then. The child is not tracked any more, and not signalled by the
end. -/
theorem second_child_lost :
    ¬(ofWorkers [[none], [none]]).Throughout TracksUnreaped
        [.start 1 7, .exit 0 0, .act 1, .act 1, .act 1, .act 1, .start 2 7, .act 1] ∧
      ¬(ofWorkers [[none], [none]]).Throughout
        (fun s => s.IsEnded → ∀ k < s.table.children.length, s.hasSignalled k = true)
        [.start 1 7, .exit 0 0, .act 1, .act 1, .act 1, .act 1, .start 2 7, .act 1, .act 0,
          .act 0] := by
  constructor
  · intro tracks
    have tracked := tracks _ _ List.prefix_rfl rfl ⟨_, List.mem_cons_self, by simp [Duty.shutdown]⟩ 1
      (by decide) (by decide)
    cases tracked
  · intro signals
    have signalled := signals _ _ List.prefix_rfl rfl rfl 1 (by decide)
    cases signalled

end Threads
end LintCorpus
