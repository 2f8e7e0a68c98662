import Tasking.Proofs.Ring.Setting
import Tasking.Proofs.Waiting

/-! # What comes of a ring

Whatever the order is in which the tasks of a ring ask for their second resources, the one that asks last
is refused, and is the only one to fail.
-/

namespace Tasking.Scenario.Ring

open State

variable {n : Nat}

/-- The tasks along a ring, from the one at a place once around and back to it. -/
def roundTrip (ring : Layout n) (v : Fin (n + 1)) : List TaskId :=
  List.ofFn (fun i : Fin (n + 1) => ring.task (v + i)) ++ [ring.task v]

/-- All tasks of a ring are at their end, and only the one at the place `v` has failed, since it would have
    closed the ring.  All resources are free, and the scheduler has nothing left to do. -/
structure OneVictim (ring : Layout n) (v : Fin (n + 1)) (st : State Unit Nat) : Prop where
  failed : ∃ task, st.tasks.get? (ring.task v) = some task ∧ task.life = .failed ∧
    task.outcome = some (.failed ⟨ring.task v, .deadlock ⟨ring.task v, roundTrip ring v⟩⟩)
  done : ∀ p, p ≠ v → ∃ task, st.tasks.get? (ring.task p) = some task ∧ task.life = .done ∧
    task.outcome = some (.done ())
  others : ∀ t, (st.tasks.get? t).isSome = true → ∃ p, t = ring.task p
  resources : ∀ p, (st.resources.get? (ring.resource p)).isSome = true
  free : ∀ r, st.owner r = none ∧ st.waiters r = []
  idle : ∃ scheduler, st.schedulers.get? ring.scheduler = some scheduler ∧
    st.statsOf ring.scheduler scheduler = ⟨0, 0, 0, 0, 0⟩

theorem onward_eq_add (v i : Fin (n + 1)) : onward v i = v + i := by
  simp [onward, Fin.ext_iff, Fin.val_add]

theorem onward_around (v : Fin (n + 1)) : onward v (n + 1) = v := by
  apply Fin.ext
  simp only [onward, Fin.val_ofNat, Nat.add_mod_right, Nat.mod_eq_of_lt v.isLt]

/-- The path of the refusal goes once around the ring. -/
theorem path_eq_roundTrip (ring : Layout n) (v : Fin (n + 1)) : path ring v (n + 2) = roundTrip ring v := by
  rw [path, List.range_succ, List.map_append, List.map_singleton, onward_around, roundTrip]
  congr 1
  refine List.ext_getElem (by simp) fun i small small' => ?_
  simp only [List.length_ofFn] at small'
  simp only [List.getElem_map, List.getElem_range, List.getElem_ofFn]
  exact congrArg ring.task (onward_eq_add v ⟨i, small'⟩)

variable {ring : Layout n} {st : State Unit Nat} {frames : Nat} {v : Fin (n + 1)}

/-- A scheduler whose tasks have all ended has nothing left to do. -/
theorem statsOf_ending (shows : Shows ring (ending ring frames v) st) :
    ∃ scheduler, st.schedulers.get? ring.scheduler = some scheduler ∧
      st.statsOf ring.scheduler scheduler = ⟨0, 0, 0, 0, 0⟩ := by
  obtain ⟨scheduler, found, runs⟩ := shows.scheduler
  refine ⟨scheduler, found, ?_⟩
  have blocked : st.blockedCount ring.scheduler = 0 := by
    rw [blockedCount_eq_population, population_eq_zero]
    intro t task known _
    obtain ⟨p, rfl⟩ := shows.everyone t (by simp [known])
    obtain rfl := Option.some.inj (known.symm.trans (shows.task p))
    simp only [ending, endedAs]
    split <;> rfl
  have ready : scheduler.ready.length = 0 := by
    rw [← Line.length_toList, runs.queue]
    rfl
  have tasks : scheduler.tasks = 0 := runs.tasks
  have runnable : scheduler.runnable = 0 := runs.runnable
  simp [statsOf, blocked, ready, tasks, runnable, runs.external]

theorem OneVictim.of_ending (shows : Shows ring (ending ring frames v) st) : OneVictim ring v st where
  failed := by
    refine ⟨_, shows.task v, ?_⟩
    simp [ending, endedAs, Seat.ended, finalLife, outcomeOf, refusal, path_eq_roundTrip]
  done p other := by
    refine ⟨_, shows.task p, ?_⟩
    simp [ending, endedAs, Seat.ended, finalLife, outcomeOf, other]
  others := shows.everyone
  resources := shows.known
  free r := by
    by_cases known : (st.resources.get? r).isSome = true
    · obtain ⟨p, rfl⟩ := shows.everything r known
      exact ⟨shows.owner p, shows.line p⟩
    · simp only [Bool.not_eq_true, Option.isSome_eq_false_iff, Option.isNone_iff_eq_none] at known
      simp [State.owner, State.waiters, known]
  idle := statsOf_ending shows

/-- When a host runs the tasks of a ring until none is ready, all of them end, and of these only the one
    fails whose request was the last one. -/
theorem one_victim (order : Equiv.Perm (Fin (n + 1))) (names : Fin (n + 1) → String) {settings : Settings}
    {parallelism : Nat} (manual : settings.workers = some 0) (sound : settings.flaw? = none)
    (detection : settings.deadlockDetection = true) :
    ∃ st, OneVictim (layout order) (order (Fin.last n)) st ∧
      Config.Traces (.start (.initial parallelism) (driver settings order names))
        ((starting order).map (fun p => ((layout order).task p, (layout order).resource p)) ++
          (List.ofFn order).map fun p => ((layout order).task p, (layout order).resource (p + 1)))
        ⟨st, .code (.answer (.done ())), []⟩ := by
  obtain ⟨st, shows, traces⟩ := @driver_meeting n order names settings parallelism manual sound detection
  have last : List.ofFn order = (List.ofFn fun i : Fin n => order i.castSucc) ++ [order (Fin.last n)] := by
    rw [List.ofFn_succ', List.concat_eq_append]
  have run := @goesRound n (layout order) (order (Fin.last n)) (2 * (n + 1)) [] (fun _ => .answer (.done ()))
    (List.ofFn order) _ last (numbered_order order) (List.nodup_ofFn.2 order.injective)
    fun p => List.mem_ofFn.2 ⟨order.symm p, order.apply_symm_apply p⟩
  rw [← starting_eq_rotate] at run
  obtain ⟨st', shows', traces'⟩ := run st shows
  exact ⟨st', .of_ending shows', traces.trans traces'⟩

theorem one_victim_of_three : Settings.manual.workers = some 0 ∧ Settings.manual.flaw? = none ∧
    Settings.manual.deadlockDetection = true ∧
    ∃ st, OneVictim (layout (Equiv.swap (0 : Fin 3) 1)) 2 st ∧
      Config.Traces (.start (.initial 1) (driver .manual (Equiv.swap (0 : Fin 3) 1) fun _ => "lock"))
        [(⟨1⟩, ⟨1⟩), (⟨2⟩, ⟨3⟩), (⟨3⟩, ⟨2⟩), (⟨3⟩, ⟨3⟩), (⟨1⟩, ⟨2⟩), (⟨2⟩, ⟨1⟩)]
        ⟨st, .code (.answer (.done ())), []⟩ :=
  ⟨rfl, by decide, rfl, one_victim (Equiv.swap (0 : Fin 3) 1) (fun _ => "lock") rfl (by decide) rfl⟩

end Tasking.Scenario.Ring
