import Tasking.Proofs.Effects

/-! # Places

A task that waits for a resource sits in the resource's line, one that joins another sits among its
joiners, and a ready task without a thread of its own sits in the ready queue of its scheduler.
`Task.place?` says where a task should sit, `State.sitters` who sits in a place.

In `State.Seated loose` every task sits exactly where it should, except that `loose` tasks were taken
off their place to be woken, or are about to be put there.  A change that concerns the seat of one
task keeps all others (`Seated.change`).
-/

namespace Tasking

variable {V C : Type}

/-- Where a task can sit. -/
inductive Place where
  /-- In line for a resource. -/
  | line (r : ResourceId)
  /-- Among the tasks that join a task. -/
  | joiners (c : TaskId)
  /-- In the ready queue of a scheduler. -/
  | queue (s : SchedulerId)
  deriving DecidableEq

/-- Where a task should sit, if it should sit anywhere. -/
def Task.place? (task : Task V) : Option Place :=
  match task.waiting with
  | some (.resource r) => some (.line r)
  | some (.task c) => some (.joiners c)
  | some .external => none
  | none => if task.life = .ready ∧ task.bound = none then some (.queue task.scheduler) else none

namespace State

/-- The tasks that wait for a task to finish, the oldest first. -/
def joiners (st : State V C) (c : TaskId) : List TaskId :=
  (st.tasks.get? c).elim [] fun task => task.joiners.toList

/-- Who sits in a place. -/
def sitters (st : State V C) : Place → List TaskId
  | .line r => st.waiters r
  | .joiners c => st.joiners c
  | .queue s => st.queue s

/-- Every task sits where it should, and nowhere else, unless it is loose. -/
structure Seated (st : State V C) (loose : TaskId → Prop) : Prop where
  placed : ∀ {t task}, st.tasks.get? t = some task →
    ∀ place, t ∈ st.sitters place ↔ ¬ loose t ∧ task.place? = some place
  known : ∀ {t place}, t ∈ st.sitters place → (st.tasks.get? t).isSome = true
  distinct : ∀ place, (st.sitters place).Nodup

/-- A task sits nowhere. -/
def Astray (st : State V C) (t : TaskId) : Prop := ∀ place, t ∉ st.sitters place

variable {st st' : State V C} {loose loose' : TaskId → Prop} {t : TaskId} {task : Task V}

namespace Seated

theorem astray (seated : st.Seated loose) (found : st.tasks.get? t = some task)
    (out : loose t ∨ task.place? = none) : st.Astray t := fun place sits => by
  obtain ⟨bound, placed⟩ := (seated.placed found place).1 sits
  cases out with
  | inl out => exact bound out
  | inr out => simp [out] at placed

/-- A change that concerns the seat of one task. -/
theorem change (seated : st.Seated loose)
    (others : ∀ {u}, u ≠ t → (st'.tasks.get? u).map Task.place? = (st.tasks.get? u).map Task.place?)
    (still : ∀ {u}, u ≠ t → ∀ place, u ∈ st'.sitters place ↔ u ∈ st.sitters place)
    (apart : ∀ {u}, u ≠ t → (loose' u ↔ loose u))
    (mine : ∃ task', st'.tasks.get? t = some task' ∧
      ∀ place, t ∈ st'.sitters place ↔ ¬ loose' t ∧ task'.place? = some place)
    (distinct : ∀ place, (st'.sitters place).Nodup) : st'.Seated loose' where
  placed {u task'} found place := by
    obtain ⟨own, there, sits⟩ := mine
    by_cases same : u = t
    · subst same
      obtain rfl := Option.some.inj (there.symm.trans found)
      exact sits place
    · have equal := others same
      rw [found] at equal
      obtain ⟨task, before, place'⟩ := Option.map_eq_some_iff.1 equal.symm
      rw [still same, apart same, ← place']
      exact seated.placed before place
  known {u place} sits := by
    obtain ⟨own, there, _⟩ := mine
    by_cases same : u = t
    · simp [same, there]
    · have before := seated.known ((still same place).1 sits)
      have equal := congrArg Option.isSome (others same)
      simpa [before] using equal
  distinct := distinct

/-- Nothing changes about who sits where, and who should. -/
theorem congr (seated : st.Seated loose)
    (tasks : ∀ u, (st'.tasks.get? u).map Task.place? = (st.tasks.get? u).map Task.place?)
    (sitters : ∀ place, st'.sitters place = st.sitters place) (same : ∀ u, loose' u ↔ loose u) :
    st'.Seated loose' where
  placed {u task'} found place := by
    have equal := tasks u
    rw [found] at equal
    obtain ⟨task, before, place'⟩ := Option.map_eq_some_iff.1 equal.symm
    rw [sitters, same, ← place']
    exact seated.placed before place
  known {u place} sits := by
    have before := seated.known (sitters place ▸ sits)
    simpa [before] using congrArg Option.isSome (tasks u)
  distinct place := sitters place ▸ seated.distinct place

end Seated

/-! ## Changes of tasks -/

theorem joiners_modifyTask {f : Task V → Task V} (keeps : ∀ task, (f task).joiners = task.joiners)
    (c : TaskId) : (st.modifyTask t f).joiners c = st.joiners c := by
  unfold joiners
  rw [get?_modifyTask]
  split
  · next same =>
    subst same
    cases st.tasks.get? c with
    | none => rfl
    | some task => simp [keeps]
  · rfl

theorem sitters_modifyTask {f : Task V → Task V} (keeps : ∀ task, (f task).joiners = task.joiners)
    (place : Place) : (st.modifyTask t f).sitters place = st.sitters place := by
  cases place with
  | joiners c => exact joiners_modifyTask keeps c
  | _ => rfl

theorem get?_modifyTask_ne {u : TaskId} (other : u ≠ t) (f : Task V → Task V) :
    (st.modifyTask t f).tasks.get? u = st.tasks.get? u := by
  rw [get?_modifyTask, if_neg other]

theorem get?_modifyTask_self (found : st.tasks.get? t = some task) (f : Task V → Task V) :
    (st.modifyTask t f).tasks.get? t = some (f task) := by
  rw [get?_modifyTask, if_pos rfl, found]
  rfl

/-- A task that sits nowhere may change where it should sit as long as it stays loose, or should
    sit nowhere. -/
theorem Seated.modifyTask (seated : st.Seated loose) (found : st.tasks.get? t = some task)
    {f : Task V → Task V} (keeps : ∀ task, (f task).joiners = task.joiners)
    (before : loose t ∨ task.place? = none) (after : loose' t ∨ (f task).place? = none)
    (apart : ∀ {u}, u ≠ t → (loose' u ↔ loose u)) : (st.modifyTask t f).Seated loose' := by
  have astray := seated.astray found before
  refine seated.change (t := t) (fun other => ?_) (fun _ place => ?_) apart
    ⟨f task, get?_modifyTask_self found f, fun place => ?_⟩ fun place => ?_
  · rw [get?_modifyTask_ne other]
  · rw [sitters_modifyTask keeps]
  · rw [sitters_modifyTask keeps]
    refine ⟨fun sits => absurd sits (astray place), fun ⟨bound, placed⟩ => ?_⟩
    cases after with
    | inl out => exact absurd out bound
    | inr out => simp [out] at placed
  · rw [sitters_modifyTask keeps]
    exact seated.distinct place

/-- Changing nothing about where a task should sit. -/
theorem Seated.keep (seated : st.Seated loose) {f : Task V → Task V}
    (keeps : ∀ task, (f task).joiners = task.joiners)
    (place : ∀ task, st.tasks.get? t = some task → (f task).place? = task.place?) :
    (st.modifyTask t f).Seated loose := by
  refine seated.congr (fun u => ?_) (sitters_modifyTask keeps) fun _ => .rfl
  rw [get?_modifyTask]
  split
  · next same =>
    subst same
    cases found : st.tasks.get? u with
    | none => rfl
    | some task => simp [place task found]
  · rfl

/-! ## Changes of schedulers -/

theorem sitters_modifyScheduler {s : SchedulerId} {f : Scheduler → Scheduler}
    (keeps : ∀ scheduler, (f scheduler).ready = scheduler.ready) (place : Place) :
    (st.modifyScheduler s f).sitters place = st.sitters place := by
  cases place with
  | queue u => exact queue_modifyScheduler keeps u
  | _ => rfl

theorem Seated.modifyScheduler (seated : st.Seated loose) {s : SchedulerId} {f : Scheduler → Scheduler}
    (keeps : ∀ scheduler, (f scheduler).ready = scheduler.ready) :
    (st.modifyScheduler s f).Seated loose :=
  seated.congr (fun _ => rfl) (sitters_modifyScheduler keeps) fun _ => .rfl

theorem Seated.adjust (seated : st.Seated loose) {s : SchedulerId} {c : Counter} {change : Int}
    (done : st.adjust s c change = .ok st') : st'.Seated loose := by
  obtain ⟨scheduler, _, _, rfl⟩ := adjust_ok.1 done
  exact seated.modifyScheduler fun _ => ready_withCount _ _ _

/-! ## Taking a seat -/

/-- A loose task goes to the end of the place where it should sit. -/
theorem Seated.sit (seated : st.Seated loose) (place : Place) (found : st.tasks.get? t = some task)
    (out : loose t) (should : task.place? = some place)
    (tasks : ∀ u, (st'.tasks.get? u).map Task.place? = (st.tasks.get? u).map Task.place?)
    (sitters : ∀ p, st'.sitters p = if p = place then st.sitters p ++ [t] else st.sitters p)
    (settled : ∀ u, loose' u ↔ loose u ∧ u ≠ t) : st'.Seated loose' := by
  have astray := seated.astray found (.inl out)
  refine seated.change (t := t) (fun _ => tasks _) (fun {u} other p => ?_)
    (fun other => (settled _).trans (and_iff_left other)) ?_ fun p => ?_
  · rw [sitters]
    split
    · simp [other]
    · rfl
  · have equal := tasks t
    rw [found] at equal
    obtain ⟨task', there, same⟩ := Option.map_eq_some_iff.1 equal
    refine ⟨task', there, fun p => ?_⟩
    have free : ¬ loose' t := fun still => ((settled t).1 still).2 rfl
    rw [sitters, same, should]
    split
    · next here => simp [here, free]
    · next elsewhere => simp [astray p, Ne.symm elsewhere]
  · rw [sitters]
    split
    · exact List.nodup_append.2 ⟨seated.distinct p, by simp, by
        rintro u sits v new rfl
        exact astray p (List.mem_singleton.1 new ▸ sits)⟩
    · exact seated.distinct p

/-- A loose task that should sit nowhere need not be loose any more. -/
theorem Seated.settle (seated : st.Seated loose) (found : st.tasks.get? t = some task)
    (out : loose t) (nowhere : task.place? = none) (settled : ∀ u, loose' u ↔ loose u ∧ u ≠ t) :
    st.Seated loose' := by
  have astray := seated.astray found (.inl out)
  refine seated.change (t := t) (fun _ => rfl) (fun _ _ => .rfl)
    (fun other => (settled _).trans (and_iff_left other)) ⟨task, found, fun place => ?_⟩ seated.distinct
  simp [astray place, nowhere]

/-- The oldest task of a place leaves it. -/
theorem Seated.rise (seated : st.Seated loose) (place : Place) {rest : List TaskId}
    (line : st.sitters place = t :: rest)
    (tasks : ∀ u, (st'.tasks.get? u).map Task.place? = (st.tasks.get? u).map Task.place?)
    (sitters : ∀ p, st'.sitters p = if p = place then rest else st.sitters p)
    (left : ∀ u, loose' u ↔ loose u ∨ u = t) : st'.Seated loose' := by
  have sits : t ∈ st.sitters place := by simp [line]
  obtain ⟨task, found⟩ := Option.isSome_iff_exists.1 (seated.known sits)
  have should := ((seated.placed found place).1 sits).2
  have distinct := seated.distinct place
  rw [line, List.nodup_cons] at distinct
  refine seated.change (t := t) (fun _ => tasks _) (fun {u} other p => ?_)
    (fun other => (left _).trans (or_iff_left other)) ?_ fun p => ?_
  · rw [sitters]
    split
    · next here => simp [here, line, other]
    · rfl
  · have equal := tasks t
    rw [found] at equal
    obtain ⟨task', there, same⟩ := Option.map_eq_some_iff.1 equal
    refine ⟨task', there, fun p => ?_⟩
    have out : loose' t := (left t).2 (.inr rfl)
    simp only [out, not_true_eq_false, false_and, iff_false]
    rw [sitters]
    split
    · exact distinct.1
    · next elsewhere =>
      intro here
      have other := ((seated.placed found p).1 here).2
      rw [should] at other
      exact elsewhere (Option.some.inj other).symm
  · rw [sitters]
    split
    · exact distinct.2
    · exact seated.distinct p

/-- Everybody leaves a place. -/
theorem Seated.dismiss (seated : st.Seated fun _ => False) (place : Place)
    (tasks : ∀ u, (st'.tasks.get? u).map Task.place? = (st.tasks.get? u).map Task.place?)
    (sitters : ∀ p, st'.sitters p = if p = place then [] else st.sitters p) :
    st'.Seated (· ∈ st.sitters place) where
  placed {u task'} found p := by
    have equal := tasks u
    rw [found] at equal
    obtain ⟨task, before, same⟩ := Option.map_eq_some_iff.1 equal.symm
    have here := seated.placed before place
    have there := seated.placed before p
    rw [sitters, ← same, here]
    split
    · next this => simp [this]
    · next other =>
      rw [there]
      simp only [not_false_eq_true, true_and]
      refine ⟨fun should => ⟨fun should' => ?_, should⟩, And.right⟩
      exact other (Option.some.inj (should.symm.trans should'))
  known {u p} sits := by
    rw [sitters] at sits
    split at sits
    · simp at sits
    · simpa [seated.known sits] using congrArg Option.isSome (tasks u)
  distinct p := by
    rw [sitters]
    split
    · exact List.nodup_nil
    · exact seated.distinct p

end State

end Tasking
