import Mathlib.Data.List.Chain
import Mathlib.Logic.Relation
import Tasking.Proofs.Ledger

/-! # The wait graph

A task that waits for a resource points at the owner of the resource, and a task that waits for another
task points at that (`State.Waits`).  The graph has no cycle as long as it is changed in one of two ways
only.  Either every new edge leads to a task that waits for nothing (`Loopless.of_sinks`): that is what
happens when a resource is handed on, since whoever gets it is woken.  Or a single task begins to wait,
after nobody was found who waits for it in turn (`Loopless.of_edges`).

`State.findCycle` finds whoever does, because the tasks on a way through a graph without cycles are
distinct, and are not more than there are unfinished tasks.
-/

namespace Tasking

variable {V C : Type}

/-! ## Graphs without cycles -/

/-- No way leads back to where it began. -/
def Loopless {α : Type} (edge : α → α → Prop) : Prop := ∀ a, ¬ Relation.TransGen edge a a

namespace Loopless

open Relation

variable {α : Type} {edge edge' : α → α → Prop}

/-- Edges to where no way goes on close no cycle. -/
theorem of_sinks (loopless : Loopless edge) (old : ∀ {a b}, edge' a b → edge a b ∨ ∀ c, ¬ edge' b c) :
    Loopless edge' := by
  -- Every edge of a way that goes on is an old one.
  have path : ∀ {a b}, TransGen edge' a b → (∃ c, edge' b c) → TransGen edge a b := by
    intro a b way further
    induction way using TransGen.head_induction_on with
    | single step =>
      obtain ⟨c, next⟩ := further
      exact .single ((old step).resolve_right fun sink => sink c next)
    | head step way inductionHypothesis =>
      obtain ⟨c, next, _⟩ := TransGen.head'_iff.1 way
      exact .head ((old step).resolve_right fun sink => sink c next) inductionHypothesis
  intro a cycle
  obtain ⟨c, next, _⟩ := TransGen.head'_iff.1 cycle
  exact loopless a (path cycle ⟨c, next⟩)

/-- Edges from one place close no cycle if no way led back from where they lead. -/
theorem of_edges (loopless : Loopless edge) (t : α)
    (old : ∀ {a b}, edge' a b → (a = t ∧ ¬ ReflTransGen edge b t) ∨ a ≠ t ∧ edge a b) :
    Loopless edge' := by
  have back : ∀ {a}, ReflTransGen edge' a t → ReflTransGen edge a t := by
    intro a way
    induction way using ReflTransGen.head_induction_on with
    | refl => exact .refl
    | head step way inductionHypothesis =>
      rcases old step with ⟨rfl, _⟩ | ⟨_, step'⟩
      · exact .refl
      · exact .head step' inductionHypothesis
  -- A way that uses a new edge comes through `t`.
  have path : ∀ {a b}, TransGen edge' a b → TransGen edge a b ∨
      ∃ u, edge' t u ∧ ReflTransGen edge' u b ∧ ReflTransGen edge' a t := by
    intro a b way
    induction way with
    | single step =>
      rcases old step with ⟨rfl, _⟩ | ⟨_, step'⟩
      · exact .inr ⟨_, step, .refl, .refl⟩
      · exact .inl (.single step')
    | tail way step inductionHypothesis =>
      rcases inductionHypothesis with before | ⟨u, leaves, onwards, here⟩
      · rcases old step with ⟨rfl, _⟩ | ⟨_, step'⟩
        · exact .inr ⟨_, step, .refl, way.to_reflTransGen⟩
        · exact .inl (before.tail step')
      · exact .inr ⟨u, leaves, onwards.tail step, here⟩
  intro a cycle
  rcases path cycle with before | ⟨u, leaves, onwards, here⟩
  · exact loopless a before
  · rcases old leaves with ⟨_, apart⟩ | ⟨other, _⟩
    · exact apart (back (onwards.trans here))
    · exact other rfl

/-- On a way through a graph without cycles, nothing is met twice. -/
theorem nodup_of_chain (loopless : Loopless edge) {l : List α} (chain : l.IsChain edge) : l.Nodup := by
  have ordered : l.Pairwise (TransGen edge) :=
    List.isChain_iff_pairwise.1 (chain.imp fun _ _ => TransGen.single)
  refine ordered.imp fun {a b} way => ?_
  rintro rfl
  exact loopless a way

end Loopless

namespace State

open Relation

variable {st st' st'' : State V C} {s : SchedulerId} {t u c : TaskId} {task task' : Task V}

/-! ## Who waits for whom -/

/-- There is such a task, and it is not at its end. -/
def Unfinished (st : State V C) (t : TaskId) : Prop :=
  ∃ task, st.tasks.get? t = some task ∧ task.isFinished = false

/-- The edges of the wait graph. -/
inductive Waits (st : State V C) : TaskId → TaskId → Prop where
  | resource {t owner : TaskId} {task : Task V} {r : ResourceId} (found : st.tasks.get? t = some task)
      (unfinished : task.isFinished = false) (waits : task.waiting = some (.resource r))
      (owns : st.owner r = some owner) (awaited : st.Unfinished owner) : Waits st t owner
  | task {t child : TaskId} {task : Task V} (found : st.tasks.get? t = some task)
      (waits : task.waiting = some (.task child)) (awaited : st.Unfinished child) : Waits st t child

theorem Waits.awaited (waits : st.Waits t u) : st.Unfinished u := by
  cases waits with
  | resource _ _ _ _ awaited => exact awaited
  | task _ _ awaited => exact awaited

/-- The scheduler of a task. -/
def home (st : State V C) (t : TaskId) : Option SchedulerId := (st.tasks.get? t).map Task.scheduler

theorem home_of_get? (found : st.tasks.get? t = some task) : st.home t = some task.scheduler := by
  simp [State.home, found]

/-- The edges between tasks of one scheduler. -/
def WaitsWithin (st : State V C) (s : SchedulerId) (t u : TaskId) : Prop :=
  st.Waits t u ∧ st.home t = some s ∧ st.home u = some s

/-- The edges that are seen from a scheduler.  The owner of a resource is seen only if it is a task of the
scheduler; a task that another one joins is always seen. -/
inductive Sees (st : State V C) (s : SchedulerId) : TaskId → TaskId → Prop where
  | resource {t owner : TaskId} {task : Task V} {r : ResourceId} (found : st.tasks.get? t = some task)
      (waits : task.waiting = some (.resource r)) (owns : st.owner r = some owner)
      (own : st.home owner = some s) (awaited : st.Unfinished owner) : Sees st s t owner
  | task {t child : TaskId} {task : Task V} (found : st.tasks.get? t = some task)
      (waits : task.waiting = some (.task child)) (awaited : st.Unfinished child) : Sees st s t child

theorem Sees.waits (sees : st.Sees s t u) (unfinished : st.Unfinished t) : st.Waits t u := by
  cases sees with
  | resource found waits owns _ awaited =>
    obtain ⟨task, found', open'⟩ := unfinished
    obtain rfl := Option.some.inj (found.symm.trans found')
    exact .resource found open' waits owns awaited
  | task found waits awaited => exact .task found waits awaited

theorem Sees.awaited (sees : st.Sees s t u) : st.Unfinished u := by
  cases sees with
  | resource _ _ _ _ awaited => exact awaited
  | task _ _ awaited => exact awaited

theorem Waits.sees (waits : st.Waits t u) (own : st.home u = some s) : st.Sees s t u := by
  cases waits with
  | resource found _ waits owns awaited => exact .resource found waits owns own awaited
  | task found waits awaited => exact .task found waits awaited

/-- A way that begins with an unfinished task meets only such. -/
theorem unfinished_of_chain {edge : TaskId → TaskId → Prop} {way : List TaskId}
    (awaited : ∀ {t u}, edge t u → st.Unfinished u) (begins : way.head? = some t)
    (unfinished : st.Unfinished t) (chain : way.IsChain edge) : ∀ u ∈ way, st.Unfinished u := by
  apply chain.induction st.Unfinished way
  · exact fun _ _ edge _ => awaited edge
  · intro some'
    rw [List.head?_eq_some_head some', Option.some.injEq] at begins
    exact begins ▸ unfinished

/-! ## The walk through the graph -/

section Walk

variable (accounts : st.Accounts)
include accounts

theorem isSome_listedTask? : (st.listedTask? s t).isSome = true ↔ st.home t = some s ∧ st.Unfinished t := by
  unfold listedTask? Unfinished State.home
  cases found : st.tasks.get? t with
  | none => simp
  | some task =>
    have entered := (accounts.posted found).entered
    simp [Option.filter, entered, Task.isFinished, and_comm]

theorem blocker_resource {r : ResourceId} :
    st.blocker s (.resource r) = some u ↔ st.owner r = some u ∧ st.home u = some s ∧ st.Unfinished u := by
  rw [← isSome_listedTask? accounts]
  unfold blocker owner
  cases known : st.resources.get? r with
  | none => simp [known]
  | some resource =>
    cases owns : resource.owner with
    | none => simp [known, owns]
    | some owner =>
      cases listed : st.listedTask? s owner with
      | none =>
        simp only [Option.bind_eq_bind, known, owns, listed, Option.bind_some, Option.bind_none, reduceCtorEq,
          Option.some.injEq, false_iff, not_and]
        rintro rfl
        simp [listed]
      | some task =>
        simp only [Option.bind_eq_bind, known, owns, listed, Option.bind_some, Option.some.injEq,
          iff_self_and]
        rintro rfl
        simp [listed]

omit accounts in
theorem blocker_task : st.blocker s (.task c) = some u ↔ c = u ∧ st.Unfinished u := by
  unfold blocker Unfinished
  constructor
  · intro blocks
    obtain ⟨task, found, blocks⟩ := Option.bind_eq_some_iff.1 blocks
    split at blocks
    · simp at blocks
    · next unfinished =>
      obtain rfl := Option.some.inj blocks
      exact ⟨rfl, task, found, by simpa using unfinished⟩
  · rintro ⟨rfl, task, found, unfinished⟩
    simp [found, unfinished]

theorem blocker_unfinished {target : WaitTarget} (blocks : st.blocker s target = some u) :
    st.Unfinished u := by
  cases target with
  | resource r => exact ((blocker_resource accounts).1 blocks).2.2
  | task c => exact (blocker_task.1 blocks).2
  | external => simp [blocker] at blocks

theorem nextWaited_eq_some : st.nextWaited s t = some u ↔ st.Sees s t u := by
  unfold nextWaited
  constructor
  · intro next
    obtain ⟨task, found, next⟩ := Option.bind_eq_some_iff.1 next
    obtain ⟨target, waits, blocks⟩ := Option.bind_eq_some_iff.1 next
    cases target with
    | resource r =>
      obtain ⟨owns, own, awaited⟩ := (blocker_resource accounts).1 blocks
      exact .resource found waits owns own awaited
    | task c =>
      obtain ⟨rfl, awaited⟩ := blocker_task.1 blocks
      exact .task found waits awaited
    | external => simp [blocker] at blocks
  · intro sees
    cases sees with
    | resource found waits owns own awaited =>
      simp [found, waits, (blocker_resource accounts).2 ⟨owns, own, awaited⟩]
    | task found waits awaited =>
      simp [found, waits, blocker_task.2 ⟨rfl, awaited⟩]

/-- The walk meets the requester exactly if it can come there by edges that it sees, before it is cut
short. -/
theorem isSome_walk_iff {bound : Nat} {first : TaskId} : (st.walk s t bound first).isSome = true ↔
    ∃ way : List TaskId, way.head? = some first ∧ way.getLast? = some t ∧ way.IsChain (st.Sees s) ∧
      way.length ≤ bound := by
  induction bound generalizing first with
  | zero =>
    constructor
    · intro walk
      simp [State.walk] at walk
    · rintro ⟨way, begins, _, _, short⟩
      rw [List.length_eq_zero_iff.1 (Nat.le_zero.1 short)] at begins
      cases begins
  | succ bound inductionHypothesis =>
    unfold State.walk
    split
    · next same => exact ⟨fun _ => ⟨[first], rfl, by simp [same], .singleton first, by simp⟩, fun _ => rfl⟩
    · next other =>
      constructor
      · intro walk
        obtain ⟨met, walk⟩ := Option.isSome_iff_exists.1 walk
        obtain ⟨next, waits, walk⟩ := Option.bind_eq_some_iff.1 walk
        obtain ⟨rest, walk, _⟩ := Option.bind_eq_some_iff.1 walk
        obtain ⟨way, begins, ends, chain, short⟩ :=
          inductionHypothesis.1 (Option.isSome_iff_exists.2 ⟨rest, walk⟩)
        have edge := (nextWaited_eq_some accounts).1 waits
        refine ⟨first :: way, rfl, ?_, ?_, Nat.succ_le_succ short⟩
        · rw [List.getLast?_cons, ends]
          rfl
        · refine List.isChain_cons.2 ⟨fun next' is => ?_, chain⟩
          rw [begins] at is
          exact Option.some.inj is ▸ edge
      · rintro ⟨way, begins, ends, chain, short⟩
        cases way with
        | nil => cases begins
        | cons head way =>
          obtain rfl := Option.some.inj begins
          cases way with
          | nil => exact absurd (Option.some.inj ends) other
          | cons next rest =>
            -- The walk goes to the second task of the way, and on from there.
            obtain ⟨edge, chain⟩ := List.isChain_cons_cons.1 chain
            have later := inductionHypothesis.2
              ⟨next :: rest, rfl, by rwa [List.getLast?_cons_cons] at ends, chain, Nat.le_of_succ_le_succ short⟩
            obtain ⟨met, walk⟩ := Option.isSome_iff_exists.1 later
            simp [(nextWaited_eq_some accounts).2 edge, walk]

/-- A way between tasks of one scheduler, in a graph without cycles, meets no more tasks than the scheduler
has on its list. -/
theorem length_le_tasks (loopless : Loopless (st.WaitsWithin s)) {scheduler : Scheduler}
    (known : st.schedulers.get? s = some scheduler) {way : List TaskId}
    (unfinished : ∀ u ∈ way, st.Unfinished u) (own : ∀ u ∈ way, st.home u = some s)
    (chain : way.IsChain st.Waits) : way.length ≤ scheduler.tasks.toNat := by
  have inside : way ⊆ st.tasks.ids.filter fun u =>
      (st.tasks.get? u).any fun task => task.scheduler = s && task.counts .tasks := by
    intro u member
    obtain ⟨task, found, open'⟩ := unfinished u member
    have entered := (accounts.posted found).entered
    have here := own u member
    rw [home_of_get? found, Option.some.injEq] at here
    refine List.mem_filter.2 ⟨Table.mem_ids found, ?_⟩
    rw [found]
    simpa [here, Task.counts, entered, Task.isFinished] using open'
  have within : way.IsChain (st.WaitsWithin s) :=
    chain.imp_of_mem_imp fun t u first second edge => ⟨edge, own t first, own u second⟩
  have fits := ((loopless.nodup_of_chain within).subperm inside).length_le
  have counts := accounts.count_eq known .tasks
  simp only [Scheduler.count] at counts
  rw [population, Table.countP_entries, List.countP_eq_length_filter] at counts
  rw [counts, Int.toNat_natCast]
  exact fits

/-- The search finds a cycle exactly if it sees a way back to the requester that is not too long. -/
theorem findCycle_isSome_iff_sees (found : st.tasks.get? t = some task) {scheduler : Scheduler}
    (known : st.schedulers.get? task.scheduler = some scheduler) (target : WaitTarget) :
    (st.findCycle t target).isSome = true ↔ ∃ first, st.blocker task.scheduler target = some first ∧
      ∃ way : List TaskId, way.head? = some first ∧ way.getLast? = some t ∧
        way.IsChain (st.Sees task.scheduler) ∧ way.length ≤ scheduler.tasks.toNat + 1 := by
  unfold findCycle
  simp only [found, known, Option.bind_eq_bind, Option.bind_some, ← isSome_walk_iff accounts]
  constructor
  · intro finds
    obtain ⟨path, finds⟩ := Option.isSome_iff_exists.1 finds
    obtain ⟨first, blocks, finds⟩ := Option.bind_eq_some_iff.1 finds
    obtain ⟨met, walk, _⟩ := Option.bind_eq_some_iff.1 finds
    exact ⟨first, blocks, Option.isSome_iff_exists.2 ⟨met, walk⟩⟩
  · rintro ⟨first, blocks, walk⟩
    obtain ⟨met, walk⟩ := Option.isSome_iff_exists.1 walk
    simp [blocks, walk]

/-- The search finds every cycle between tasks of the requester's scheduler. -/
theorem findCycle_of_within (loopless : Loopless (st.WaitsWithin s)) (found : st.tasks.get? t = some task)
    (own : task.scheduler = s) {target : WaitTarget} {first : TaskId}
    (blocks : st.blocker s target = some first) (way : ReflTransGen (st.WaitsWithin s) first t) :
    (st.findCycle t target).isSome = true := by
  subst own
  obtain ⟨scheduler, known⟩ := Option.isSome_iff_exists.1 (accounts.posted found).known
  obtain ⟨rest, chain, last⟩ := List.exists_isChain_cons_of_relationReflTransGen way
  have waits : (first :: rest).IsChain st.Waits := chain.imp fun _ _ edge => edge.1
  have here : st.home first = some task.scheduler := by
    cases way.cases_head with
    | inl same => exact same ▸ home_of_get? found
    | inr leaves =>
      obtain ⟨_, edge, _⟩ := leaves
      exact edge.2.1
  have homes := chain.induction (fun u => st.home u = some task.scheduler) _ (fun _ _ edge _ => edge.2.2)
    fun _ => here
  have unfinished := unfinished_of_chain Waits.awaited rfl (blocker_unfinished accounts blocks) waits
  have short := length_le_tasks accounts loopless known unfinished homes waits
  apply (findCycle_isSome_iff_sees accounts found known target).2
  refine ⟨first, blocks, first :: rest, rfl, ?_, ?_, Nat.le_succ_of_le short⟩
  · rw [List.getLast?_eq_some_getLast (List.cons_ne_nil _ _), last]
  · exact chain.imp fun _ _ edge => edge.1.sees edge.2.2

section Single

variable (own : ∀ {t task}, st.tasks.get? t = some task → task.scheduler = s)
include own

omit accounts in
/-- If all tasks are on one scheduler, all edges are within it. -/
theorem waitsWithin_eq : st.WaitsWithin s = st.Waits := by
  funext t u
  refine propext ⟨fun within => within.1, fun edge => ⟨edge, ?_, ?_⟩⟩
  · cases edge with
    | resource found => rw [home_of_get? found, own found]
    | task found => rw [home_of_get? found, own found]
  · obtain ⟨task, found, _⟩ := edge.awaited
    rw [home_of_get? found, own found]

/-- If all tasks are on one scheduler, the search finds a cycle exactly if waiting would close one. -/
theorem findCycle_isSome_iff (loopless : Loopless st.Waits) (found : st.tasks.get? t = some task)
    (target : WaitTarget) : (st.findCycle t target).isSome = true ↔
      ∃ first, st.blocker s target = some first ∧ ReflTransGen st.Waits first t := by
  have here := own found
  constructor
  · obtain ⟨scheduler, known⟩ := Option.isSome_iff_exists.1 (accounts.posted found).known
    rw [findCycle_isSome_iff_sees accounts found known, here]
    rintro ⟨first, blocks, way, begins, ends, chain, _⟩
    have unfinished := unfinished_of_chain Sees.awaited begins (blocker_unfinished accounts blocks) chain
    have waits := chain.imp_of_mem_imp fun t u inside _ edge => edge.waits (unfinished t inside)
    have some' : way ≠ [] := by
      rintro rfl
      cases begins
    rw [List.head?_eq_some_head some', Option.some.injEq] at begins
    rw [List.getLast?_eq_some_getLast some', Option.some.injEq] at ends
    exact ⟨first, blocks, begins ▸ ends ▸ List.relationReflTransGen_of_exists_isChain _ waits some'⟩
  · rintro ⟨first, blocks, way⟩
    rw [← waitsWithin_eq own] at loopless way
    exact findCycle_of_within accounts loopless found here blocks way

end Single

end Walk

end State

end Tasking
