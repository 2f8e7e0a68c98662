import Tasking.Proofs.Untangled
import Tasking.Proofs.Waiting

/-! # No task is stuck

When a host drove its scheduler until nothing was ready, every task that was started is at its end or
waits, and whoever waits does so, in the end, for an event outside or for a task that nobody started.

A task that waits has an edge in the wait graph, unless it waits outside: the records of who waits are
exact, so what it waits for is owned by a task, or is a task, that is not at its end.  Whoever that is
neither runs nor is ready any more.  So every way through the graph can be continued until it comes to
one of the two kinds of ends, and since the graph has no cycle it comes there before it has met more
tasks than there are.
-/

namespace Tasking

variable {V C : Type}

namespace State

open Relation

variable {st : State V C} {t u u' : TaskId} {home : SchedulerId}

/-- The task waits for an event outside, or was not started. -/
def Rests (st : State V C) (t : TaskId) : Prop := ∃ task, st.tasks.get? t = some task ∧
  (task.life = .init ∨ task.life = .waiting ∧ task.waiting = some .external)

/-- A task waits for one task at a time. -/
theorem Waits.unique (first : st.Waits t u) (second : st.Waits t u') : u = u' := by
  cases first with
  | resource found _ waits owns =>
    cases second with
    | resource found' _ waits' owns' =>
      obtain rfl := Option.some.inj (found.symm.trans found')
      obtain rfl := WaitTarget.resource.inj (Option.some.inj (waits.symm.trans waits'))
      exact Option.some.inj (owns.symm.trans owns')
    | task found' waits' =>
      obtain rfl := Option.some.inj (found.symm.trans found')
      simp [waits] at waits'
  | task found waits =>
    cases second with
    | resource found' _ waits' =>
      obtain rfl := Option.some.inj (found.symm.trans found')
      simp [waits] at waits'
    | task found' waits' =>
      obtain rfl := Option.some.inj (found.symm.trans found')
      exact WaitTarget.task.inj (Option.some.inj (waits.symm.trans waits'))

/-- If every way can be continued until it comes to a task at rest, then there are ways as long as one
likes, or one that comes there. -/
theorem rests_or_long (further : ∀ {t}, st.Unfinished t → st.Rests t ∨ ∃ u, st.Waits t u) (n : Nat)
    (unfinished : st.Unfinished t) : (∃ u, ReflTransGen st.Waits t u ∧ st.Rests u) ∨
      ∃ rest : List TaskId, rest.length = n ∧ (t :: rest).IsChain st.Waits := by
  induction n generalizing t with
  | zero => exact .inr ⟨[], rfl, .singleton t⟩
  | succ n inductionHypothesis =>
    cases further unfinished with
    | inl rests => exact .inl ⟨t, .refl, rests⟩
    | inr next =>
      obtain ⟨u, waits⟩ := next
      cases inductionHypothesis waits.awaited with
      | inl ends =>
        obtain ⟨v, way, rests⟩ := ends
        exact .inl ⟨v, .head waits way, rests⟩
      | inr long =>
        obtain ⟨rest, length, way⟩ := long
        exact .inr ⟨u :: rest, by simp [length], List.isChain_cons_cons.2 ⟨waits, way⟩⟩

/-- In a graph without cycles, all ways come to a task at rest. -/
theorem Watched.rests (watched : st.Watched (· = home))
    (further : ∀ {t}, st.Unfinished t → st.Rests t ∨ ∃ u, st.Waits t u) (unfinished : st.Unfinished t) :
    ∃ u, ReflTransGen st.Waits t u ∧ st.Rests u := by
  have present := unfinished
  obtain ⟨task, found, _⟩ := present
  have own : ∀ {t task}, st.tasks.get? t = some task → task.scheduler = home :=
    fun found => (watched.posted found).1
  obtain ⟨scheduler, known⟩ := Option.isSome_iff_exists.1 (watched.accounts.posted found).known
  rw [own found] at known
  cases rests_or_long further scheduler.tasks.toNat unfinished with
  | inl ends => exact ends
  | inr long =>
    obtain ⟨rest, length, way⟩ := long
    have open' := unfinished_of_chain Waits.awaited rfl unfinished way
    have here : ∀ u ∈ t :: rest, st.home u = some home := by
      intro u member
      obtain ⟨task, found, _⟩ := open' u member
      rw [home_of_get? found, own found]
    have short := length_le_tasks watched.accounts (watched.untangled.loopless home) known open' here way
    rw [List.length_cons, length] at short
    omega

/-- The records are exact, and nothing runs or is ready: a task that is not at its end waits for another
one, or is at rest. -/
theorem WaitsExactly.further (exactly : st.WaitsExactly)
    (still : ∀ {t task}, st.tasks.get? t = some task →
      task.life = .init ∨ task.life = .waiting ∨ task.isFinished = true)
    (settled : ∀ {t task}, st.tasks.get? t = some task → task.outcome.isSome = task.life.isTerminal)
    (unfinished : st.Unfinished t) : st.Rests t ∨ ∃ u, st.Waits t u := by
  obtain ⟨task, found, open'⟩ := unfinished
  rcases still found with new | parked | ended
  · exact .inl ⟨task, found, .inl new⟩
  · obtain ⟨target, waits, _⟩ := exactly.parked found parked
    cases target with
    | external => exact .inl ⟨task, found, .inr ⟨parked, waits⟩⟩
    | resource r =>
      obtain ⟨u, owner, owns, known, busy⟩ := exactly.owned found parked waits
      exact .inr ⟨u, .resource found open' waits owns ⟨owner, known, busy⟩⟩
    | task child =>
      obtain ⟨awaited, known, none'⟩ := exactly.unfinished found parked waits
      have busy : awaited.life.isTerminal = false := by simpa [none'] using (settled known).symm
      exact .inr ⟨child, .task found waits ⟨awaited, known, busy⟩⟩
  · simp [open'] at ended

end State

namespace Crew

open Relation

variable [Inhabited V] {home : SchedulerId}

/-- What programs keep to that use a single scheduler, which looks for deadlocks, as it is meant to be
used. -/
def Tame (home : SchedulerId) (c : Crew V C) (a : Agent V C) : Prop := Proper c a ∧ Single home c a

omit [Inhabited V] in
theorem between_of_still {c : Crew V C} (still : c.runs = []) : c.Between :=
  fun _ member inside => absurd (List.flatMap_eq_nil_iff.1 still _ member) inside

/-- A thread that is inside no task has driven the scheduler, and its next step goes on, in this state. -/
def Returns (home : SchedulerId) (c : Crew V C) (st : State V C) : Prop :=
  c.runs = [] ∧ ∃ n next stack, ⟨.drain home n next, stack⟩ ∈ c.agents ∧
    (⟨c.state, .drain home n next, stack⟩ : Config V C).step = .ok ⟨st, .code (next n), stack⟩

/-- A thread that goes on after it drove a scheduler leaves nothing in its queue. -/
theorem Returns.empty {c : Crew V C} {st : State V C} (returned : c.Returns home st) :
    st = c.state ∧ c.state.queue home = [] := by
  obtain ⟨_, n, next, stack, _, returns⟩ := returned
  exact Config.empty_of_drain returns

omit [Inhabited V] in
/-- While no task runs and none is ready, every task is new, waits, or is at its end. -/
theorem still_of_empty {c : Crew V C} (orderly : c.Orderly) (watched : c.state.Watched (· = home))
    (still : c.runs = []) (empty : c.state.queue home = []) {t : TaskId} {task : Task V}
    (found : c.state.tasks.get? t = some task) :
    task.life = .init ∨ task.life = .waiting ∨ task.isFinished = true := by
  cases life : task.life with
  | ready =>
    have queued : t ∈ c.state.queue home :=
      watched.accounts.mem_queue.2 ⟨task, found, (watched.posted found).1, life⟩
    simp [empty] at queued
  | running =>
    have live : c.state.life t = some .running := by simp [State.life, found, life]
    have nowhere := orderly.manned live
    simp [stage, still] at nowhere
  | _ => simp [Task.isFinished, life, Life.isTerminal]

/-- When a thread that is inside no task drove the scheduler, and goes on, then every task that was
started waits or is at its end.  Every task that waits does so for one task at most, and in the end for
an event outside or for a task that was not started; so if there is neither, all tasks are at their
end. -/
theorem Run.never_stuck (run : Run V C (Tame home)) {i : Nat} (bound : i ≤ run.length) {st : State V C}
    (returns : (run.crew i).Returns home st) :
    (∀ {t task}, st.tasks.get? t = some task →
      task.life = .init ∨ task.life = .waiting ∨ task.isFinished = true) ∧
    (∀ {t u u'}, st.Waits t u → st.Waits t u' → u = u') ∧
    (∀ {t task}, st.tasks.get? t = some task → task.life = .waiting →
      ∃ u, ReflTransGen st.Waits t u ∧ st.Rests u) ∧
    ((∀ t, ¬ st.Rests t) → ∀ {t task}, st.tasks.get? t = some task → task.isFinished = true) := by
  obtain ⟨rfl, empty⟩ := returns.empty
  have orderly := (run.mono fun _ _ tame => tame.1).orderly i bound
  have sound := (run.mono fun _ _ tame => tame.1.1).sound i bound
  have watched := (run.mono fun _ _ tame => tame.2).watched_single bound
  have quiet : ∀ {t task}, (run.crew i).state.tasks.get? t = some task →
      task.life = .init ∨ task.life = .waiting ∨ task.isFinished = true :=
    still_of_empty orderly watched returns.1 empty
  have exactly : (run.crew i).state.WaitsExactly := orderly.waitsExactly sound (between_of_still returns.1)
  have ends : ∀ {t}, (run.crew i).state.Unfinished t →
      ∃ u, ReflTransGen (run.crew i).state.Waits t u ∧ (run.crew i).state.Rests u := by
    intro t unfinished
    apply watched.rests _ unfinished
    exact exactly.further quiet fun found => (orderly.balanced.sane found).settled
  refine ⟨quiet, State.Waits.unique, ?_, ?_⟩
  · intro t task found parked
    exact ends ⟨task, found, by simp [Task.isFinished, parked, Life.isTerminal]⟩
  · intro awake t task found
    by_contra open'
    obtain ⟨u, _, rests⟩ := ends ⟨task, found, by simpa using open'⟩
    exact awake u rests

/-! ### A task that waits outside, and one that joins it -/

def vigil : Program Unit Empty :=
  let body : Body Unit Empty := fun context _ _ =>
    .ask (.waitExternal context.task) fun _ => .answer .suspended
  .newFrame "vigil" body fun entry =>
  .ask .newRegistry fun g =>
  .ask (.newScheduler .manual g) fun
    | .error _ => .answer .suspended
    | .ok s => .ask (.spawn s entry) fun
      | .error _ => .answer .suspended
      | .ok t => .ask (.newJoin t) fun join => .ask (.spawn s join) fun
        | .error _ => .answer .suspended
        | .ok u => .ask (.start t) fun _ => .ask (.start u) fun _ =>
          .drive s fun _ => .answer (.done ())

/-- The host of the two tasks after so many steps. -/
def vigilHost (n : Nat) : Config Unit Empty := (Config.start (.initial 1) vigil).after n

theorem vigil_ok : ∀ n < 17, (vigilHost n).step.isOk = true := by decide +kernel

theorem vigil_idle {n : Nat} {f : FrameId} (known : (vigilHost n).alone.picture.known f)
    (root : ∀ g, (vigilHost n).state.caller g = none)
    (bases : ∀ t, (vigilHost n).alone.picture.base t ≠ some f)
    (insides : ∀ t, (vigilHost n).alone.stage t ≠ some (.inside f))
    (plain : (vigilHost n).state.guard? f = none) : (vigilHost n).alone.picture.Idle f := by
  refine ⟨known, ?_, fun guards => nomatch plain.symm.trans guards⟩
  rintro t (⟨b, base, way⟩ | inside)
  · rcases way.cases_caller with rfl | ⟨c, link, _⟩
    · exact bases t base
    · cases (root b).symm.trans link
  · exact insides t inside

theorem vigil_spawns : Tame ⟨1⟩ (vigilHost 3).alone (vigilHost 3).agent := by
  refine ⟨⟨?_, trivial⟩, trivial, ?_⟩
  · show ∀ f, Reaches (vigilHost 3).state.caller ⟨1⟩ f → (vigilHost 3).alone.picture.Idle f
    intro f way
    obtain rfl : ⟨1⟩ = f := way.cases_caller.resolve_right nofun
    refine vigil_idle rfl ?_ ?_ ?_ rfl
    · rintro ⟨_ | _ | n⟩ <;> rfl
    · rintro ⟨_ | n⟩ <;> nofun
    · rintro ⟨_ | n⟩ <;> nofun
  · rintro s entry next ⟨⟩
    exact ⟨rfl, by decide +kernel⟩

theorem vigil_joins : Tame ⟨1⟩ (vigilHost 5).alone (vigilHost 5).agent := by
  refine ⟨⟨?_, trivial⟩, trivial, ?_⟩
  · show ∀ f, Reaches (vigilHost 5).state.caller ⟨2⟩ f → (vigilHost 5).alone.picture.Idle f
    intro f way
    obtain rfl : ⟨2⟩ = f := way.cases_caller.resolve_right nofun
    refine vigil_idle rfl ?_ ?_ ?_ rfl
    · rintro ⟨_ | _ | _ | n⟩ <;> rfl
    · rintro ⟨_ | _ | n⟩ <;> nofun
    · rintro ⟨_ | _ | n⟩ <;> nofun
  · rintro s entry next ⟨⟩
    exact ⟨rfl, by decide +kernel⟩

theorem vigil_trampoline {n : Nat} {t : TaskId} {f : FrameId} {after : Focus Unit Empty}
    (focus : (vigilHost n).agent.focus = .trampoline t after) (top : (vigilHost n).state.top t = some f)
    (plain : (vigilHost n).state.guard? f = none) :
    Guarded (vigilHost n).alone (vigilHost n).agent := by
  unfold Guarded
  rw [focus]
  intro task g r body found first _ asks
  obtain rfl : f = g := Option.some.inj (top.symm.trans ((State.top_of_get? found).trans first))
  rcases asks with ⟨starts, _⟩ | ⟨value, waits⟩
  · cases plain.symm.trans starts
  · cases plain.symm.trans waits

theorem vigil_tame : ∀ n < 16, Tame ⟨1⟩ (vigilHost n).alone (vigilHost n).agent := by
  intro n bound
  interval_cases n
  case «3» => exact vigil_spawns
  case «5» => exact vigil_joins
  case «10» =>
    have guarded := @vigil_trampoline 10 ⟨1⟩ ⟨1⟩ _ rfl (by decide +kernel) rfl
    exact ⟨⟨guarded, trivial⟩, trivial, nofun⟩
  case «11» => exact ⟨⟨trivial, ⟨⟨⟨1⟩, rfl⟩, Agent.heads_frame.2 rfl⟩⟩, trivial, nofun⟩
  case «14» =>
    have guarded := @vigil_trampoline 14 ⟨2⟩ ⟨2⟩ _ rfl (by decide +kernel) rfl
    exact ⟨⟨guarded, trivial⟩, trivial, nofun⟩
  all_goals exact ⟨⟨trivial, trivial⟩, trivial, nofun⟩

def vigilRun : Run Unit Empty (Tame ⟨1⟩) :=
  .ofHost 1 vigil 16 (fun n bound => vigil_ok n (by omega)) vigil_tame

/-- The second task waits for the first, which waits for an event outside. -/
theorem vigil_waits : ∃ st, (vigilRun.crew 17).Returns ⟨1⟩ st ∧ st.Waits ⟨2⟩ ⟨1⟩ ∧
    ∃ u, ReflTransGen st.Waits ⟨2⟩ u ∧ st.Rests u := by
  have returns : (vigilRun.crew 17).Returns ⟨1⟩ (vigilHost 17).state := by
    refine ⟨by decide +kernel, 2, fun _ => .answer (.done ()), [], List.mem_singleton.2 rfl, ?_⟩
    exact Config.step_after (vigil_ok 16 (by omega))
  obtain ⟨_, _, comes, _⟩ := vigilRun.never_stuck (show 17 ≤ 17 by decide) returns
  obtain ⟨task, found⟩ : ∃ task, (vigilHost 17).state.tasks.get? ⟨2⟩ = some task :=
    Option.isSome_iff_exists.1 (by decide +kernel)
  obtain ⟨child, known⟩ : ∃ task, (vigilHost 17).state.tasks.get? ⟨1⟩ = some task :=
    Option.isSome_iff_exists.1 (by decide +kernel)
  have parked : ((vigilHost 17).state.tasks.get? ⟨2⟩).map Task.life = some .waiting := by decide +kernel
  have waits : ((vigilHost 17).state.tasks.get? ⟨2⟩).map Task.waiting = some (some (.task ⟨1⟩)) := by
    decide +kernel
  have busy : ((vigilHost 17).state.tasks.get? ⟨1⟩).map Task.isFinished = some false := by decide +kernel
  rw [found] at parked waits
  rw [known] at busy
  exact ⟨_, returns, .task found (Option.some.inj waits) ⟨child, known, Option.some.inj busy⟩,
    comes found (Option.some.inj parked)⟩

end Crew

end Tasking
