import Mathlib.Algebra.Order.BigOperators.Group.List
import Mathlib.Algebra.Ring.Int.Defs
import Tasking.Proofs.Links
import Tasking.Proofs.Safety

/-! # Counters

A scheduler counts its unfinished tasks, those of its tasks that are ready or running, and those
that wait for an event outside.  `State.tally` counts the tasks themselves.

Operations change tasks first and counters later, so in between a counter is ahead of the tally, or
behind it.  `State.Counted ahead` says by how much.  A counter that is never behind when it is
lowered does not drop below zero.
-/

namespace Tasking

variable {V C : Type}

/-! ## Sums over tables -/

namespace Table

variable {kind : Kind} {α : Type}

/-- A sum over all things of a kind. -/
def total (table : Table kind α) (weight : α → Int) : Int :=
  (table.entries.toList.map weight).sum

theorem sum_map_modify (weight : α → Int) (f : α → α) (l : List α) (i : Nat) :
    ((l.modify i f).map weight).sum =
      (l.map weight).sum + (l[i]?.elim 0 fun a => weight (f a) - weight a) := by
  induction l generalizing i with
  | nil => simp
  | cons a rest inductionHypothesis =>
    cases i with
    | zero =>
      simp only [List.modify_zero_cons, List.map_cons, List.sum_cons, List.getElem?_cons_zero,
        Option.elim_some]
      omega
    | succ i =>
      simp only [List.modify_succ_cons, List.map_cons, List.sum_cons, inductionHypothesis,
        List.getElem?_cons_succ]
      omega

theorem total_modify {table : Table kind α} {i : Id kind} {a : α} (found : table.get? i = some a)
    (weight : α → Int) (f : α → α) :
    (table.modify i f).total weight = table.total weight + (weight (f a) - weight a) := by
  unfold get? at found
  unfold modify total
  split at found
  · simp at found
  · next nonzero =>
    rw [if_neg nonzero, Array.toList_modify, sum_map_modify, Array.getElem?_toList, found]
    rfl

theorem total_add (table : Table kind α) (a : α) (weight : α → Int) :
    (table.add a).total weight = table.total weight + weight a := by
  simp [total, add]

theorem exists_of_mem {table : Table kind α} {a : α} (member : a ∈ table.entries.toList) :
    ∃ i, table.get? i = some a := by
  obtain ⟨i, bound, found⟩ := List.getElem_of_mem member
  refine ⟨⟨i + 1⟩, ?_⟩
  have bound' : i < table.entries.size := by simpa using bound
  simpa [get?, Array.getElem?_eq_getElem bound'] using found

theorem mem_of_get? {table : Table kind α} {i : Id kind} {a : α} (found : table.get? i = some a) :
    a ∈ table.entries.toList := by
  unfold get? at found
  split at found
  · simp at found
  · exact List.mem_of_getElem? (by simpa using found)

/-- Tables of things that weigh the same. -/
theorem total_congr {table table' : Table kind α} {weight : α → Int}
    (same : ∀ i, (table'.get? i).map weight = (table.get? i).map weight) :
    table'.total weight = table.total weight := by
  unfold total
  refine congrArg List.sum (List.ext_getElem? fun n => ?_)
  have equal := same ⟨n + 1⟩
  unfold get? at equal
  simpa only [List.getElem?_map, Array.getElem?_toList, Nat.add_eq_zero_iff, one_ne_zero, and_false,
    ↓reduceIte, Nat.add_sub_cancel] using equal

theorem total_eq_zero {table : Table kind α} {weight : α → Int}
    (zero : ∀ {i a}, table.get? i = some a → weight a = 0) : table.total weight = 0 := by
  refine List.sum_eq_zero fun n member => ?_
  obtain ⟨a, inside, rfl⟩ := List.mem_map.1 member
  exact zero (exists_of_mem inside).choose_spec

theorem total_nonneg (table : Table kind α) {weight : α → Int} (nonneg : ∀ a, 0 ≤ weight a) :
    0 ≤ table.total weight :=
  List.sum_nonneg (by simpa using fun a _ => nonneg a)

end Table

/-! ## Tallies -/

/-- Whether a task is one of those that a counter counts. -/
def Task.counts (task : Task V) : Counter → Bool
  | .tasks => task.listed
  | .runnable => task.life = .ready || task.life = .running
  | .external => task.external

/-- What a task adds to a counter. -/
def Task.weight (s : SchedulerId) (c : Counter) (task : Task V) : Int :=
  if task.scheduler = s ∧ task.counts c = true then 1 else 0

theorem Task.weight_nonneg (s : SchedulerId) (c : Counter) (task : Task V) : 0 ≤ task.weight s c := by
  unfold Task.weight
  split <;> omega

namespace State

/-- What a counter of a scheduler should say. -/
def tally (st : State V C) (s : SchedulerId) (c : Counter) : Int := st.tasks.total (Task.weight s c)

/-- Every counter is ahead of its tally by so much. -/
def Counted (st : State V C) (ahead : SchedulerId → Counter → Int) : Prop :=
  ∀ s scheduler, st.schedulers.get? s = some scheduler →
    ∀ c, scheduler.count c = st.tally s c + ahead s c

variable {st st' : State V C} {ahead : SchedulerId → Counter → Int} {t : TaskId} {task : Task V}

theorem tally_nonneg (st : State V C) (s : SchedulerId) (c : Counter) : 0 ≤ st.tally s c :=
  st.tasks.total_nonneg (Task.weight_nonneg s c)

theorem Counted.congr {ahead' : SchedulerId → Counter → Int} (counted : st.Counted ahead)
    (same : ∀ s c, ahead' s c = ahead s c) : st.Counted ahead' :=
  fun _ _ found c => (same _ c).symm ▸ counted _ _ found c

/-- Changing a task puts the counters ahead by what it takes off their tallies. -/
theorem Counted.modifyTask (counted : st.Counted ahead) (found : st.tasks.get? t = some task)
    (f : Task V → Task V) :
    (st.modifyTask t f).Counted fun s c => ahead s c + (task.weight s c - (f task).weight s c) := by
  intro s scheduler known c
  have changed : (st.modifyTask t f).tally s c = st.tally s c + ((f task).weight s c - task.weight s c) :=
    Table.total_modify found _ f
  have before := counted s scheduler known c
  dsimp only
  omega

/-- Changing nothing about a task that is counted changes no tally. -/
theorem Counted.keep (counted : st.Counted ahead) (found : st.tasks.get? t = some task)
    {f : Task V → Task V} (same : ∀ s c, (f task).weight s c = task.weight s c) :
    (st.modifyTask t f).Counted ahead :=
  (counted.modifyTask found f).congr fun s c => by
    have equal := same s c
    omega

theorem Counted.modifyScheduler (counted : st.Counted ahead) (s : SchedulerId)
    {f : Scheduler → Scheduler} (keeps : ∀ scheduler c, (f scheduler).count c = scheduler.count c) :
    (st.modifyScheduler s f).Counted ahead := by
  intro s' scheduler' known c
  rw [get?_modifyScheduler] at known
  split at known
  · next same =>
    subst same
    obtain ⟨scheduler, found, rfl⟩ := Option.map_eq_some_iff.1 known
    exact (keeps scheduler c).trans (counted _ _ found c)
  · exact counted _ _ known c

/-- The distances after a counter was changed. -/
def shift (ahead : SchedulerId → Counter → Int) (s : SchedulerId) (c : Counter) (change : Int) :
    SchedulerId → Counter → Int :=
  fun s' c' => if s' = s ∧ c' = c then ahead s' c' + change else ahead s' c'

theorem count_withCount (scheduler : Scheduler) (c c' : Counter) (n : Int) :
    (scheduler.withCount c n).count c' = if c' = c then n else scheduler.count c' := by
  cases c <;> cases c' <;> rfl

theorem Counted.shifted (counted : st.Counted ahead) {s : SchedulerId} {c : Counter} {change : Int}
    {f : Scheduler → Scheduler} (changes : ∀ scheduler, st.schedulers.get? s = some scheduler →
      ∀ c', (f scheduler).count c' = scheduler.count c' + if c' = c then change else 0) :
    (st.modifyScheduler s f).Counted (shift ahead s c change) := by
  intro s' scheduler' known c'
  rw [get?_modifyScheduler] at known
  unfold shift
  split at known
  · next same =>
    subst same
    obtain ⟨scheduler, found, rfl⟩ := Option.map_eq_some_iff.1 known
    have before := counted _ scheduler found c'
    rw [changes scheduler found]
    by_cases this : c' = c
    · simp only [this, true_and, ↓reduceIte] at before ⊢
      exact (congrArg (· + change) before).trans (Int.add_assoc ..)
    · simp only [this, and_false, ↓reduceIte, Int.add_zero]
      exact before
  · next other =>
    simp only [other, false_and, ↓reduceIte]
    exact counted _ _ known c'

theorem Counted.adjust (counted : st.Counted ahead) {s : SchedulerId} {c : Counter} {change : Int}
    (done : st.adjust s c change = .ok st') : st'.Counted (shift ahead s c change) := by
  obtain ⟨scheduler, found, _, rfl⟩ := adjust_ok.1 done
  refine Counted.shifted counted fun scheduler' found' c' => ?_
  obtain rfl := Option.some.inj (found.symm.trans found')
  rw [count_withCount]
  split
  · next same => rw [same]
  · exact (Int.add_zero _).symm

/-- A counter may be changed as long as it does not fall behind. -/
theorem Counted.adjust_safe (counted : st.Counted ahead) {s : SchedulerId} {c : Counter} {change : Int}
    (enough : 0 ≤ ahead s c + change) : Safe (st.adjust s c change) := by
  unfold State.adjust
  refine .bind (.scheduler s) fun scheduler known => .check ?_ (.pure _)
  have count := counted s scheduler (scheduler_ok.1 known) c
  have nonneg := st.tally_nonneg s c
  omega

end State

end Tasking
