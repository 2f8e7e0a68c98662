import Tasking.Proofs.Across
import Tasking.Proofs.Apart.Cycles
import Tasking.Proofs.Leaving

/-! # Refusals

A request to wait is refused if it would close a cycle.  `Crew.Run.refuses_truly` says that a refusal can be
trusted, whatever code did before: it comes exactly if the search that anybody can ask for finds a cycle, the
path that it names leads from task to task along waits that are there at that moment, and the request has
changed nothing, so the task can deal with the error and go on.

The graph need not be free of cycles for this, and tasks may have threads of their own.  What the search follows
is a function: a task waits for one thing at a time.  So a walk that comes to its end meets no task twice
(`State.nodup_of_walk`), or it would go round for ever.
-/

namespace Tasking

variable {V C : Type}

namespace State

variable {st st' : State V C} {s : SchedulerId} {t u child : TaskId} {r : ResourceId} {bound : Nat}
  {met : List TaskId} {target : WaitTarget}

/-! ## Walks -/

/-- A walk is at its end, or goes on with the task that is waited for. -/
theorem walk_ok (walks : st.walk s t (bound + 1) u = some met) : u = t ∧ met = [u] ∨
    u ≠ t ∧ ∃ next rest, st.nextWaited s u = some next ∧ st.walk s t bound next = some rest ∧ met = u :: rest := by
  rw [walk_succ] at walks
  split at walks
  · next here => exact .inl ⟨here, (Option.some.inj walks).symm⟩
  · next other =>
    obtain ⟨next, waits, walks⟩ := Option.bind_eq_some_iff.1 walks
    obtain ⟨rest, later, same⟩ := Option.map_eq_some_iff.1 walks
    exact .inr ⟨other, next, rest, waits, later, same.symm⟩

theorem head?_of_walk (walks : st.walk s t bound u = some met) : met.head? = some u := by
  cases bound with
  | zero => cases walks
  | succ bound => rcases walk_ok walks with ⟨_, rfl⟩ | ⟨_, _, _, _, _, rfl⟩ <;> rfl

theorem getLast?_of_walk (walks : st.walk s t bound u = some met) : met.getLast? = some t := by
  induction bound generalizing u met with
  | zero => cases walks
  | succ bound inductionHypothesis =>
    rcases walk_ok walks with ⟨rfl, rfl⟩ | ⟨_, next, rest, _, later, rfl⟩
    · rfl
    · rw [List.getLast?_cons, inductionHypothesis later]
      rfl

/-- A task is met once, so before its end a walk does not meet the task that it looks for. -/
theorem notMem_dropLast_of_walk (walks : st.walk s t bound u = some met) : t ∉ met.dropLast := by
  have last := getLast?_of_walk walks
  have nodup := nodup_of_walk walks
  rw [← List.dropLast_append_getLast? t last] at nodup
  exact fun member => (List.nodup_append.1 nodup).2.2 t member t (by simp) rfl

namespace Kept

variable (kept : st.Kept)
include kept

/-- Whoever is on a list is not at its end. -/
theorem blocker_resource (blocks : st.blocker s (.resource r) = some u) :
    st.owner r = some u ∧ st.Unfinished u := by
  obtain ⟨resource, known, blocks⟩ := Option.bind_eq_some_iff.1 blocks
  obtain ⟨owner, owns, blocks⟩ := Option.bind_eq_some_iff.1 blocks
  obtain ⟨task, listed, same⟩ := Option.bind_eq_some_iff.1 blocks
  obtain rfl := Option.some.inj same
  obtain ⟨found, fits⟩ := Option.filter_eq_some_iff.1 listed
  simp only [Bool.and_eq_true, decide_eq_true_eq] at fits
  refine ⟨by simp [State.owner, known, owns], task, found, ?_⟩
  have entered := kept.listed found
  unfold Task.Listed at entered
  split at entered
  · simp [fits.1] at entered
  · next live => simpa [Task.isFinished] using live

theorem blocker_unfinished (blocks : st.blocker s target = some u) : st.Unfinished u := by
  cases target with
  | resource r => exact (kept.blocker_resource blocks).2
  | task child => exact (blocker_task.1 blocks).2
  | external => cases blocks

/-- The walk goes along the edges of the wait graph. -/
theorem waits_of_nextWaited (unfinished : st.Unfinished t) (next : st.nextWaited s t = some u) : st.Waits t u := by
  obtain ⟨task, found, next⟩ := Option.bind_eq_some_iff.1 next
  obtain ⟨target, waits, blocks⟩ := Option.bind_eq_some_iff.1 next
  cases target with
  | resource r =>
    obtain ⟨owns, awaited⟩ := kept.blocker_resource blocks
    obtain ⟨task', found', open'⟩ := unfinished
    obtain rfl := Option.some.inj (found.symm.trans found')
    exact .resource found open' waits owns awaited
  | task child =>
    obtain ⟨rfl, awaited⟩ := blocker_task.1 blocks
    exact .task found waits awaited
  | external => cases blocks

theorem waits_of_walk (unfinished : st.Unfinished u) (walks : st.walk s t bound u = some met) :
    met.IsChain st.Waits := by
  induction bound generalizing u met with
  | zero => cases walks
  | succ bound inductionHypothesis =>
    rcases walk_ok walks with ⟨_, rfl⟩ | ⟨_, next, rest, waits, later, rfl⟩
    · exact .singleton u
    · have edge := kept.waits_of_nextWaited unfinished waits
      refine List.isChain_cons.2 ⟨fun first is => ?_, inductionHypothesis edge.awaited later⟩
      rw [head?_of_walk later] at is
      exact Option.some.inj is ▸ edge

end Kept

/-! ## What a refusal says -/

/-- The scheduler of a task refuses requests that would close a cycle. -/
def LooksOut (st : State V C) (t : TaskId) : Prop :=
  ∃ task, st.tasks.get? t = some task ∧ st.detects task.scheduler = true

/-- The refusal of a request to wait for something that depends on the task `first`.  Its path begins with the task
that asked, goes on with `first`, leads from each task to the one that it waits for, and ends with the task that
asked.  But for that, no task is on it twice, and none is at its end. -/
structure Truthful (st : State V C) (t first : TaskId) (refusal : Deadlock) : Prop where
  requester : refusal.requester = t
  path : ∃ way, refusal.path = t :: way ∧ way.head? = some first ∧ way.getLast? = some t ∧ way.IsChain st.Waits
  long : 2 ≤ refusal.path.length
  distinct : refusal.path.dropLast.Nodup
  unfinished : ∀ u ∈ refusal.path.dropLast, st.Unfinished u

theorem exists_refusal_iff : (∃ refusal, st.refusal? t target = some refusal) ↔
    st.LooksOut t ∧ (st.findCycle t target).isSome = true := by
  unfold refusal? LooksOut
  cases found : st.tasks.get? t with
  | none => simp
  | some task =>
    cases detects : st.detects task.scheduler with
    | false => simp [detects]
    | true =>
      cases finds : st.findCycle t target with
      | none => simp [detects]
      | some path => simp [detects]

/-- A search that finds something says what would be waited for first. -/
theorem blocker_of_refusal {refusal : Deadlock} (refused : st.refusal? t target = some refusal) :
    ∃ s first bound met, st.blocker s target = some first ∧ st.walk s t bound first = some met ∧
      refusal = ⟨t, t :: met⟩ := by
  obtain ⟨_, path, _, finds, rfl⟩ := refusal?_eq_some refused
  obtain ⟨task, found, finds⟩ := Option.bind_eq_some_iff.1 finds
  obtain ⟨scheduler, known, finds⟩ := Option.bind_eq_some_iff.1 finds
  obtain ⟨first, blocks, finds⟩ := Option.bind_eq_some_iff.1 finds
  obtain ⟨met, walks, same⟩ := Option.bind_eq_some_iff.1 finds
  exact ⟨_, first, _, met, blocks, walks, by rw [Option.some.inj same]⟩

theorem Kept.truthful (kept : st.Kept) {refusal : Deadlock} (refused : st.refusal? t target = some refusal) :
    ∃ s first, st.blocker s target = some first ∧ st.Truthful t first refusal := by
  obtain ⟨s, first, bound, met, blocks, walks, rfl⟩ := blocker_of_refusal refused
  have begins := head?_of_walk walks
  have ends := getLast?_of_walk walks
  have awaited := kept.blocker_unfinished blocks
  have waits := kept.waits_of_walk awaited walks
  have unfinished := unfinished_of_chain Waits.awaited begins awaited waits
  have some' : met ≠ [] := by
    rintro rfl
    cases begins
  have short : (t :: met).dropLast = t :: met.dropLast := List.dropLast_cons_of_ne_nil some'
  refine ⟨s, first, blocks, rfl, ⟨met, rfl, begins, ends, waits⟩, ?_, ?_, fun u member => ?_⟩
  · have positive := List.length_pos_of_ne_nil some'
    simp only [List.length_cons]
    omega
  · rw [short]
    refine List.nodup_cons.2 ⟨notMem_dropLast_of_walk walks, ?_⟩
    exact (nodup_of_walk walks).sublist (List.dropLast_sublist met)
  · rw [short] at member
    cases List.mem_cons.1 member with
    | inl here => exact here ▸ unfinished t (List.mem_of_getLast? ends)
    | inr inside => exact unfinished u (List.dropLast_subset met inside)

/-! ## Requests -/

/-- A request for a resource is refused exactly if it has an owner and the search finds a cycle. -/
theorem acquire_eq_refused_iff {refusal : Deadlock} : st.acquire r t = .ok (.error refusal, st') ↔
    st.refusal? t (.resource r) = some refusal ∧ st' = st := by
  constructor
  · intro done
    obtain ⟨_, _, ⟨taken, _⟩ | ⟨_, ⟨refusal', same, refused, rfl⟩ | ⟨blocked, _⟩⟩⟩ := acquire_ok done
    · cases taken
    · obtain rfl := Except.error.inj same
      exact ⟨refused, rfl⟩
    · cases blocked
  · rintro ⟨refused, rfl⟩
    -- What is looked for is a way from the owner, so there is one.
    obtain ⟨task, _, found, _⟩ := refusal?_eq_some refused
    obtain ⟨_, first, _, _, blocks, _⟩ := blocker_of_refusal refused
    obtain ⟨resource, known, blocks⟩ := Option.bind_eq_some_iff.1 blocks
    obtain ⟨owner, owns, _⟩ := Option.bind_eq_some_iff.1 blocks
    apply acquire_refused (by simp [known]) (by simp [found])
    · simp [State.owner, known, owns]
    · exact refused

theorem waitFor_eq_refused_iff {refusal : Deadlock} : st.waitFor t child = .ok (.error refusal, st') ↔
    ((st.tasks.get? child).bind Task.outcome = none ∧ st.refusal? t (.task child) = some refusal) ∧ st' = st := by
  constructor
  · intro done
    obtain ⟨awaited, found, ⟨ended, _⟩ | ⟨open', ⟨refusal', same, refused, rfl⟩ | ⟨joined, _⟩⟩⟩ := waitFor_ok done
    · cases ended
    · obtain rfl := Except.error.inj same
      exact ⟨⟨by simp [found, open'], refused⟩, rfl⟩
    · cases joined
  · rintro ⟨⟨open', refused⟩, rfl⟩
    obtain ⟨task, _, found, _⟩ := refusal?_eq_some refused
    obtain ⟨_, first, _, _, blocks, _⟩ := blocker_of_refusal refused
    obtain ⟨awaited, found', _⟩ := Option.bind_eq_some_iff.1 blocks
    rw [found', Option.bind_some] at open'
    refine bind_ok.2 ⟨awaited, task_ok.2 found', bind_ok.2 ⟨task, task_ok.2 found, ?_⟩⟩
    simp only [open', refused]
    rfl

theorem acquire_refused_iff_finds : (∃ refusal st', st.acquire r t = .ok (.error refusal, st')) ↔
    st.LooksOut t ∧ (st.findCycle t (.resource r)).isSome = true := by
  simp only [acquire_eq_refused_iff, exists_eq_right, ← exists_refusal_iff]

theorem waitFor_refused_iff_finds : (∃ refusal st', st.waitFor t child = .ok (.error refusal, st')) ↔
    st.LooksOut t ∧ (st.tasks.get? child).bind Task.outcome = none ∧
      (st.findCycle t (.task child)).isSome = true := by
  simp only [waitFor_eq_refused_iff, exists_eq_right, exists_and_left, exists_refusal_iff]
  exact and_left_comm

end State

namespace Crew

variable [Inhabited V]

/-- Whatever code did so far, a request to wait is refused exactly if the scheduler of the task refuses such
requests and the search finds a cycle.  The refusal is then `Truthful`, and the state is the one before. -/
theorem Run.refuses_truly (run : Run V C Unforged) {i : Nat} (bound : i ≤ run.length) :
    let st := (run.crew i).state
    (∀ t r, (∃ refusal st', st.acquire r t = .ok (.error refusal, st')) ↔
      st.LooksOut t ∧ (st.findCycle t (.resource r)).isSome = true) ∧
    (∀ t r refusal st', st.acquire r t = .ok (.error refusal, st') → st' = st ∧
      st.findCycle t (.resource r) = some refusal.path ∧
      ∃ owner, st.owner r = some owner ∧ st.Truthful t owner refusal) ∧
    (∀ t child, (∃ refusal st', st.waitFor t child = .ok (.error refusal, st')) ↔
      st.LooksOut t ∧ (st.tasks.get? child).bind Task.outcome = none ∧
        (st.findCycle t (.task child)).isSome = true) ∧
    ∀ t child refusal st', st.waitFor t child = .ok (.error refusal, st') → st' = st ∧
      st.findCycle t (.task child) = some refusal.path ∧ st.Truthful t child refusal := by
  intro st
  have kept : st.Kept := run.kept i bound
  refine ⟨fun t r => State.acquire_refused_iff_finds, fun t r refusal st' done => ?_,
    fun t child => State.waitFor_refused_iff_finds, fun t child refusal st' done => ?_⟩
  · obtain ⟨refused, unchanged⟩ := State.acquire_eq_refused_iff.1 done
    obtain ⟨task, path, found, finds, same⟩ := State.refusal?_eq_some refused
    obtain ⟨s, owner, blocks, truthful⟩ := kept.truthful refused
    have owns := (kept.blocker_resource blocks).1
    subst same
    exact ⟨unchanged, finds, owner, owns, truthful⟩
  · obtain ⟨⟨ongoing, refused⟩, unchanged⟩ := State.waitFor_eq_refused_iff.1 done
    obtain ⟨task, path, found, finds, same⟩ := State.refusal?_eq_some refused
    obtain ⟨s, awaited, blocks, truthful⟩ := kept.truthful refused
    obtain ⟨rfl, unfinished⟩ := State.blocker_task.1 blocks
    subst same
    exact ⟨unchanged, finds, truthful⟩

/-! ### Two tasks and two resources

The host of `tangle` has the second task wait for the resource of the first.  The first then asks for the resource of
the second. -/

theorem tangle_unforged : ∀ n < 10, Unforged (tangleHost n).alone (tangleHost n).agent := by
  intro n bound
  interval_cases n <;> trivial

def tangleUnforged : Run Unit Empty Unforged := .ofHost 1 tangle 10 tangle_ok tangle_unforged

theorem tangle_refused : 11 ≤ tangleUnforged.length ∧
    ∃ refusal, (tangleUnforged.crew 11).state.acquire ⟨2⟩ ⟨1⟩ =
        .ok (.error refusal, (tangleUnforged.crew 11).state) ∧
      refusal.path = [⟨1⟩, ⟨2⟩, ⟨1⟩] ∧ (tangleUnforged.crew 11).state.Truthful ⟨1⟩ ⟨2⟩ refusal := by
  have reached : 11 ≤ tangleUnforged.length := by decide
  obtain ⟨refuses, truly, _⟩ := tangleUnforged.refuses_truly reached
  have looks : (tangleUnforged.crew 11).state.LooksOut ⟨1⟩ := by
    obtain ⟨task, found⟩ : ∃ task, (tangleUnforged.crew 11).state.tasks.get? ⟨1⟩ = some task :=
      Option.isSome_iff_exists.1 (by decide +kernel)
    have home : (some task).map Task.scheduler = some ⟨1⟩ := by
      rw [← found]
      decide +kernel
    refine ⟨task, found, ?_⟩
    rw [Option.some.inj home]
    decide +kernel
  obtain ⟨refusal, st', done⟩ := (refuses ⟨1⟩ ⟨2⟩).2 ⟨looks, by decide +kernel⟩
  obtain ⟨unchanged, finds, owner, owns, truthful⟩ := truly _ _ _ _ done
  have path : some [⟨1⟩, ⟨2⟩, ⟨1⟩] = some refusal.path := by
    rw [← finds]
    decide +kernel
  have same : some ⟨2⟩ = some owner := by
    rw [← owns]
    decide +kernel
  obtain rfl := Option.some.inj same
  exact ⟨reached, refusal, unchanged ▸ done, (Option.some.inj path).symm, truthful⟩

end Crew

end Tasking
