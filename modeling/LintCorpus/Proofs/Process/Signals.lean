import LintCorpus.Proofs.Process.Order

/-!
Which signals come too late. A thread looks whether a child has been reaped before it signals it,
but others go on between the two, and between its first signal and its second. A child that is
reaped meanwhile is signalled afterwards, under a number that may be another's by then.
-/
namespace LintCorpus

namespace Threads

variable {s t u : Threads} {h : Happening} {k : Nat} {signal : GroupSignal}

/-- A thread is bound to send a signal to a child: it has looked whether it still can, and will not
look again. -/
def IsBoundTo (s : Threads) (k : Nat) (signal : GroupSignal) : Prop :=
  s.HasDuty (.attend k (.signal signal))

/-- No signal was sent to a child that had been reaped, and none is bound to be. -/
structure SignalsInTime (s : Threads) : Prop where
  sent : ∀ sent ∈ s.sent, sent.afterReap = false
  bound : ∀ k signal, s.IsBoundTo k signal → s.table.isReaped k = false

/-- A thread reaps a child that one is bound to signal. -/
def ReapsTooEarly (s : Threads) : Happening → Prop
  | .act thread => ∃ k rest, s.duties[thread]? = some (.attend k .reap :: rest) ∧
      s.hasExited k = true ∧ ∃ signal, s.IsBoundTo k signal
  | _ => False

theorem signal_mem_attending {j : Nat} {tasks : List Task}
    (mem : Duty.attend k (.signal signal) ∈ Duty.attending j tasks) :
    k = j ∧ Task.signal signal ∈ tasks := by
  obtain ⟨task, mem, same⟩ := List.mem_map.mp mem
  cases same
  exact ⟨rfl, mem⟩

theorem signal_notMem_endings (t : ProcessTable) :
    Duty.attend k (.signal signal) ∉ t.endings := by
  intro mem
  obtain ⟨j, -, mem⟩ := List.mem_flatMap.mp mem
  obtain ⟨-, mem⟩ := signal_mem_attending mem
  simp [Task.termination] at mem

theorem Move.isBoundTo (move : Move s h t) (sound : s.Sound) (later : t.IsBoundTo k signal) :
    s.IsBoundTo k signal ∨ s.table.isReaped k = false ∧ t.table = s.table := by
  cases move with
  | refuse due | close due | skip due | signal due | await due | reap due | unregister due =>
    exact .inl ((hasDuty_of_turn due [] later).resolve_left List.not_mem_nil)
  | drain due => exact .inl ((hasDuty_of_turn due _ later).resolve_left (signal_notMem_endings _))
  | check due unreaped =>
    rcases hasDuty_of_turn due _ later with mem | before
    · obtain ⟨rfl, -⟩ := signal_mem_attending mem
      exact .inr ⟨unreaped, rfl⟩
    · exact .inl before
  | giveUp due =>
    refine .inl ((hasDuty_of_turn due _ later).resolve_left fun mem => ?_)
    obtain ⟨-, mem⟩ := signal_mem_attending mem
    rcases (sound.due due).1 with rfl | rfl <;> simp [Task.termination] at mem
  | start due =>
    refine .inl ((hasDuty_of_turn due _ later).resolve_left fun mem => ?_)
    obtain ⟨-, mem⟩ := signal_mem_attending mem
    simp [Task.supervision] at mem
  | exit => exact .inl later

namespace SignalsInTime

theorem moves (inTime : s.SignalsInTime) (sound : s.Sound) (move : Move s h t)
    (due : ¬s.ReapsTooEarly h) : t.SignalsInTime := by
  refine ⟨?_, fun k signal bound => ?_⟩
  · cases move with
    | signal duty =>
      intro sent mem
      rcases List.mem_append.mp mem with mem | mem
      · exact inTime.sent sent mem
      · obtain rfl := List.mem_singleton.mp mem
        exact inTime.bound _ _ (hasDuty_due duty)
    | _ => exact inTime.sent
  · rw [← Bool.not_eq_true]
    intro reaped
    -- the thread was bound to the signal before, or it has looked at the child just now
    rcases move.isBoundTo sound bound with before | ⟨unreaped, same⟩
    · have unreaped := inTime.bound k signal before
      rcases move.isReaped reaped with earlier | ⟨thread, rest, rfl, toReap, exited⟩
      · rw [unreaped] at earlier
        cases earlier
      · exact due ⟨k, rest, toReap, exited, signal, before⟩
    · rw [same, unreaped] at reaped
      cases reaped

theorem first (workers : List (List (Option Nat))) : (ofWorkers workers).SignalsInTime where
  sent := nofun
  bound := fun _ _ _ => rfl

end SignalsInTime

theorem lateSignal_of_reapsTooEarly (early : s.ReapsTooEarly h) :
    ∃ t, s.step h = some t ∧ ¬t.SignalsInTime := by
  cases h with
  | act thread =>
    obtain ⟨k, rest, due, exited, signal, bound⟩ := early
    refine ⟨_, (Move.reap due exited).steps, fun inTime => ?_⟩
    have later : (s.turnTo thread ([] ++ rest)).IsBoundTo k signal := hasDuty_turn due bound nofun
    have unreaped := inTime.bound k signal later
    rw [isReaped_reap exited] at unreaped
    cases unreaped
  | giveUp | start | exit => exact early.elim

/-! ### Runs in which something is started -/

theorem sent_eq_nil {workers : List (List (Option Nat))} (idle : ∀ limits ∈ workers, limits = [])
    (reaches : (ofWorkers workers).Reaches s) : s.sent = [] := by
  have invariant := reaches.invariant (P := fun s => s.sent = [] ∧ s.table.tracked = [] ∧
      ∀ duty, s.HasDuty duty → duty = .close ∨ duty = .drain) ?_ ?_
  · exact invariant.1
  · refine ⟨rfl, rfl, fun duty has => ?_⟩
    obtain ⟨duties, mem, inside⟩ := has
    rcases List.mem_cons.mp mem with rfl | mem
    · simpa [Duty.shutdown] using inside
    · obtain ⟨limits, worker, rfl⟩ := List.mem_map.mp mem
      rw [idle limits worker] at inside
      cases inside
  · intro s h t move ⟨sent, tracked, duties⟩
    cases move with
    | close due =>
      exact ⟨sent, tracked, fun duty has => duties duty
        ((hasDuty_of_turn due [] has).resolve_left List.not_mem_nil)⟩
    | drain due =>
      refine ⟨sent, rfl, fun duty has => duties duty ((hasDuty_of_turn due _ has).resolve_left ?_)⟩
      simp [ProcessTable.endings, tracked]
    | exit => exact ⟨sent, tracked, duties⟩
    | refuse due | skip due | check due | signal due | await due | reap due | unregister due
    | giveUp due | start due =>
      rcases duties _ (hasDuty_due due) with same | same <;> cases same

/-- Where something is started a child can be signalled after it was reaped: the ending thread looks
whether to signal it, the worker reaps it, and then the ending thread goes on. -/
theorem exists_late {workers : List (List (Option Nat))} {i : Nat} {limit : Option Nat}
    {more : List (Option Nat)} (found : workers[i]? = some (limit :: more)) :
    ∃ s, (ofWorkers workers).Reaches s ∧ ∃ sent ∈ s.sent, sent.afterReap = true := by
  have inside : i < (workers.map Duty.work).length := by
    rw [List.length_map]
    exact (List.getElem?_eq_some_iff.mp found).1
  have started := reaches_started found
  -- the ending thread has seen the child unreaped, which has exited since
  have looked := started.trans (u := ⟨oneChild (.exited 0) [] true,
      meeting (workers.map Duty.work) i
        (Duty.attending 0 [.signal .term, .await (some Task.defaultGrace) [], .signal .kill, .reap])
        (Duty.attending 0 (Task.supervision limit) ++ Duty.work more), []⟩)
    ⟨[.act 0, .act 0, .act 0, .exit 0 0], rfl⟩
  have late := (looked.trans (worker_reaps inside)).trans (u := ⟨oneChild (.reaped 0) [] true,
      meeting (workers.map Duty.work) i
        (Duty.attending 0 [.await (some Task.defaultGrace) [], .signal .kill, .reap])
        (Duty.attending 0 [.unregister] ++ Duty.work more), [⟨0, .kill, false⟩, ⟨0, .term, true⟩]⟩)
    ⟨[.act 0], rfl⟩
  exact ⟨_, late, ⟨0, .term, true⟩, by simp, rfl⟩

theorem signalsInTime_iff (workers : List (List (Option Nat))) (happenings : List Happening) :
    (ofWorkers workers).Throughout SignalsInTime happenings ↔
      (ofWorkers workers).AtEach (fun s h => ¬s.ReapsTooEarly h) happenings := by
  constructor
  · intro inTime before h s inside passed early
    obtain ⟨t, steps, late⟩ := lateSignal_of_reapsTooEarly early
    have reached : (ofWorkers workers).run (before ++ [h]) = some t := by
      rw [run_concat, passed]
      exact steps
    exact late (inTime (before ++ [h]) t inside reached)
  · intro due before t inside reached
    have all := due.throughout (P := fun s => s.Sound ∧ s.SignalsInTime)
      ⟨Sound.first workers, SignalsInTime.first workers⟩
      fun s h t move due ⟨sound, inTime⟩ => ⟨sound.moves move, inTime.moves sound move due⟩
    exact (all before t inside reached).2

/-- For all workers: no signal comes too late, whatever happens, exactly if nothing is ever started.
And for everything that can happen: signals are in time throughout exactly if nobody reaps a child
that one is bound to signal. -/
theorem signals_in_time_iff (workers : List (List (Option Nat))) :
    ((∀ s, (ofWorkers workers).Reaches s → ∀ sent ∈ s.sent, sent.afterReap = false) ↔
        ∀ limits ∈ workers, limits = []) ∧
      ∀ happenings, (ofWorkers workers).Throughout SignalsInTime happenings ↔
        (ofWorkers workers).AtEach (fun s h => ¬s.ReapsTooEarly h) happenings := by
  refine ⟨⟨fun inTime limits mem => ?_, fun idle s reaches sent mem => ?_⟩,
    signalsInTime_iff workers⟩
  · by_contra started
    obtain ⟨limit, more, rfl⟩ := List.exists_cons_of_ne_nil started
    obtain ⟨i, found⟩ := List.mem_iff_getElem?.mp mem
    obtain ⟨s, reaches, sent, mem, late⟩ := exists_late found
    rw [inTime s reaches sent mem] at late
    cases late
  · rw [sent_eq_nil idle reaches] at mem
    cases mem

/-- The polite signal of the thread that ends the run comes after the worker has reaped the
child. -/
theorem term_after_reap :
    ¬(ofWorkers [[none]]).Throughout (fun s => ∀ sent ∈ s.sent, sent.afterReap = false)
      [.start 1 7, .act 0, .act 0, .act 0, .exit 0 0, .act 1, .act 1, .act 1, .act 1, .act 0] := by
  intro inTime
  have sent := inTime _ _ List.prefix_rfl rfl ⟨0, .term, true⟩ (by decide)
  cases sent

end Threads
end LintCorpus
