import Tasking.Proofs.Ledger
import Tasking.Proofs.Touching

/-! # Ready tasks run in the order in which they became ready

Two histories of a scheduler are read off the stages of its tasks, step by step: who became ready
(`Crew.Run.arrivals`), and whose run began (`Crew.Run.picks`).  Whatever code does that forces no task from
one stage to another, the first history is the second one and, behind it, the tasks that are ready now
(`Crew.Run.arrivals_eq`).

A step has more than one task become ready only if a task ends.  Then they are among those that joined it,
and become ready in the order in which they did.
-/

namespace Tasking

variable {V C : Type}

/-- What stands before the first occurrence of an entry is the same in equal lists. -/
theorem before_eq_of_notMem {α : Type} {a : α} {l l' m m' : List α} (out : a ∉ l) (out' : a ∉ l')
    (same : l ++ a :: m = l' ++ a :: m') : l = l' := by
  rcases List.append_eq_append_iff.1 same with ⟨rest, rfl, line⟩ | ⟨rest, rfl, line⟩
  · cases rest with
    | nil => simp
    | cons b rest =>
      obtain rfl : a = b := (List.cons.inj line).1
      simp at out'
  · cases rest with
    | nil => simp
    | cons b rest =>
      obtain rfl : a = b := (List.cons.inj line).1
      simp at out

namespace State

variable {st st₁ st' : State V C} {s : SchedulerId} {t u c : TaskId} {task : Task V}

/-! ## Histories -/

/-- The task is ready, and one of the scheduler. -/
def readyOn (st : State V C) (s : SchedulerId) (t : TaskId) : Bool :=
  (st.tasks.get? t).any fun task => task.standing = (s, .ready)

/-- The task that ended between two states, if there is one. -/
def ended? (st st' : State V C) : Option TaskId :=
  st'.tasks.ids.find? fun t => st.life t = some .running && (st'.life t).any Life.isTerminal

/-- The tasks in the order in which they become ready, if they do. -/
def roster (st st' : State V C) : List TaskId := (st.ended? st').elim st'.tasks.ids st.joiners

/-- The tasks of a scheduler that became ready between two states, in order. -/
def entrants (st st' : State V C) (s : SchedulerId) : List TaskId :=
  (st.roster st').filter fun t => !st.readyOn s t && st'.readyOn s t

/-- The ready tasks of a scheduler whose runs began between two states. -/
def taken (st st' : State V C) (s : SchedulerId) : List TaskId :=
  st'.tasks.ids.filter fun t => st.readyOn s t && st'.life t = some .running

theorem readyOn_iff : st.readyOn s t = true ↔
    ∃ task, st.tasks.get? t = some task ∧ task.scheduler = s ∧ task.life = .ready := by
  simp [readyOn, Option.any_eq_true, Task.standing]

theorem life_of_readyOn (ready : st.readyOn s t = true) : st.life t = some .ready := by
  obtain ⟨task, found, _, life⟩ := readyOn_iff.1 ready
  rw [life_of_get? found, life]

theorem mem_ids_of_readyOn (ready : st.readyOn s t = true) : t ∈ st.tasks.ids := by
  obtain ⟨task, found, _⟩ := readyOn_iff.1 ready
  exact Table.mem_ids found

theorem Accounts.readyOn_iff_mem (accounts : st.Accounts) : st.readyOn s t = true ↔ t ∈ st.queue s := by
  rw [readyOn_iff, accounts.mem_queue]

theorem ended?_eq_none (still : ∀ t, st.life t = some .running → ∀ life, st'.life t = some life →
    life.isTerminal = false) : st.ended? st' = none := by
  refine List.find?_eq_none.2 fun t _ ended => ?_
  simp only [Bool.and_eq_true, decide_eq_true_eq, Option.any_eq_true] at ended
  obtain ⟨live, life, lives, terminal⟩ := ended
  simp [still t live life lives] at terminal

theorem Aside.life (aside : Aside st st') (t : TaskId) : st'.life t = st.life t :=
  aside.map_eq t fun same => by rw [same]

theorem Aside.readyOn (aside : Aside st st') (s : SchedulerId) (t : TaskId) :
    st'.readyOn s t = st.readyOn s t := by
  have same := aside.map_eq t (f := Task.standing) fun same => by rw [Task.standing, Task.standing, same]
  unfold State.readyOn
  cases found : st.tasks.get? t with
  | none =>
    rw [found, Option.map_none, Option.map_eq_none_iff] at same
    rw [same]
  | some task =>
    rw [found, Option.map_some, Option.map_eq_some_iff] at same
    obtain ⟨task', found', same⟩ := same
    rw [found', Option.any_some, Option.any_some, same]

/-- Nothing that the histories speak of happens before code comes to a deed. -/
theorem Aside.entrants (aside : Aside st st₁) (s : SchedulerId) :
    st₁.entrants st' s = st.entrants st' s := by
  have ended : st₁.ended? st' = st.ended? st' := by simp only [ended?, aside.life]
  have joiners : st₁.joiners = st.joiners := by
    funext t
    unfold State.joiners
    rcases aside.rel t with ⟨absent, absent'⟩ | ⟨task, task', found, found', same⟩
    · rw [absent, absent']
    · rw [found, found', same]
      rfl
  simp only [State.entrants, roster, ended, joiners, aside.readyOn]

theorem Aside.taken (aside : Aside st st₁) (s : SchedulerId) : st₁.taken st' s = st.taken st' s := by
  simp only [State.taken, aside.readyOn]

theorem Aside.queue (aside : Aside st st') (s : SchedulerId) : st'.queue s = st.queue s := by
  rw [State.queue, aside.schedulers, State.queue]

/-! ## What gets in line -/

/-- One task at most got in line, behind all that were there. -/
def Pushes (st st' : State V C) (s : SchedulerId) : Prop :=
  ∃ new, st'.queue s = st.queue s ++ new ∧ new.length ≤ 1

namespace Pushes

theorem of_queue (same : st'.queue s = st.queue s) : Pushes st st' s := ⟨[], by simp [same], by simp⟩

theorem of_schedulers (same : st'.schedulers = st.schedulers) : Pushes st st' s :=
  of_queue (by rw [State.queue, same, State.queue])

theorem before (same : st₁.queue s = st.queue s) (pushes : Pushes st₁ st' s) : Pushes st st' s := by
  obtain ⟨new, queue, few⟩ := pushes
  exact ⟨new, by rw [queue, same], few⟩

theorem mem (pushes : Pushes st st' s) (inside : t ∈ st.queue s) : t ∈ st'.queue s := by
  obtain ⟨new, queue, _⟩ := pushes
  rw [queue]
  exact List.mem_append_left new inside

theorem schedule (done : st.schedule t = .ok st') : Pushes st st' s := by
  obtain ⟨task, found, ⟨_, rfl⟩ | ⟨_, _, rfl⟩⟩ := schedule_ok done
  · exact .of_queue rfl
  · by_cases known : (st.schedulers.get? task.scheduler).isSome = true
    · rw [Pushes, queue_enqueued known]
      split
      · next here => exact ⟨[t], by rw [here], by simp⟩
      · exact ⟨[], by simp, by simp⟩
    · refine .of_queue ?_
      rw [State.queue, enqueued, get?_modifyScheduler, State.queue]
      split
      · next here => simp [here, State.modifyTask, show st.schedulers.get? task.scheduler = none by simpa using known]
      · rfl

theorem ready (done : st.ready t = .ok st') : Pushes st st' s := by
  obtain ⟨task, found⟩ := exists_of_task done
  refine ⟨_, queue_ready found done s, ?_⟩
  split <;> simp

theorem start (done : st.start t = .ok st') : Pushes st st' s := by
  obtain ⟨task, found⟩ := exists_of_task done
  obtain ⟨_, st₁, counts, scheduled⟩ := start_ok found done
  exact .before (sitters_adjust counts (.queue s)) (.schedule scheduled)

theorem park (done : st.park t = .ok st') : Pushes st st' s := by
  obtain ⟨task, found⟩ := exists_of_task done
  obtain ⟨_, ⟨_, scheduled⟩ | ⟨_, _, counts⟩⟩ := park_ok found done
  · have pushed : Pushes (st.setLife t .ready) st' s := .schedule scheduled
    exact .before rfl pushed
  · exact .of_queue (sitters_adjust counts (.queue s))

theorem acquire {r : ResourceId} {granted : Except Deadlock Grant}
    (done : st.acquire r t = .ok (granted, st')) : Pushes st st' s := by
  obtain ⟨_, _, ⟨_, _, rfl⟩ | ⟨_, ⟨_, _, _, rfl⟩ | ⟨_, _, _, rfl⟩⟩⟩ := acquire_ok done
  · exact .of_schedulers rfl
  · exact .of_schedulers rfl
  · exact .of_schedulers rfl

theorem release {r : ResourceId} (done : st.release r t = .ok st') : Pushes st st' s := by
  obtain ⟨_, _, ⟨_, rfl⟩ | ⟨next, rest, _, woken⟩⟩ := release_ok done
  · exact .of_schedulers rfl
  · have pushed : Pushes (st.handed next r rest) st' s := .ready woken
    exact .before rfl pushed

theorem waitFor {child : TaskId} {reply : Except Deadlock (Option (Outcome V))}
    (done : st.waitFor t child = .ok (reply, st')) : Pushes st st' s := by
  obtain ⟨_, _, ⟨_, _, rfl⟩ | ⟨_, ⟨_, _, _, rfl⟩ | ⟨_, _, rfl⟩⟩⟩ := waitFor_ok done
  · exact .of_schedulers rfl
  · exact .of_schedulers rfl
  · exact .of_schedulers rfl

variable [Inhabited V]

theorem serve (accounts : st.Accounts) {request : Request V C} {reply : request.Reply}
    (unforced : st.Unforced request) (done : st.serve request = .ok (reply, st')) : Pushes st st' s := by
  cases request with
  | move | spawnBound => exact unforced.elim
  | spawn u entry =>
    simp only [State.serve, State.spawn, bind_ok] at done
    obtain ⟨scheduler, _, done⟩ := done
    split at done
    · simp only [pure_ok, Prod.mk.injEq] at done
      exact done.2 ▸ .of_queue rfl
    · simp only [pure_ok, Prod.mk.injEq] at done
      obtain ⟨_, rfl⟩ := done
      exact .of_queue (queue_spawned u s entry none)
  | start t =>
    simp only [State.serve, bind_ok, pure_ok, Prod.mk.injEq] at done
    obtain ⟨_, started, _, rfl⟩ := done
    exact .start started
  | ready t =>
    simp only [State.serve, bind_ok, pure_ok, Prod.mk.injEq] at done
    obtain ⟨_, woken, _, rfl⟩ := done
    exact .ready woken
  | yield t =>
    simp only [State.serve, State.yield, bind_ok, check_ok, pure_ok, Prod.mk.injEq] at done
    obtain ⟨_, ⟨_, _, _, rfl⟩, _, rfl⟩ := done
    exact .of_schedulers rfl
  | waitExternal t =>
    simp only [State.serve, bind_ok, pure_ok, Prod.mk.injEq] at done
    obtain ⟨_, announced, _, rfl⟩ := done
    obtain ⟨task, found⟩ := exists_of_task announced
    obtain ⟨_, counts⟩ := waitExternal_ok found announced
    split at counts
    · exact counts ▸ .of_schedulers rfl
    · exact .of_queue (sitters_adjust counts (.queue s))
  | pause t f =>
    simp only [State.serve, bind_ok, pure_ok, Prod.mk.injEq] at done
    obtain ⟨_, paused, _, rfl⟩ := done
    exact .of_schedulers (Aside.of_pause paused).schedulers
  | waitFor t child => exact .waitFor done
  | tryAcquire r t =>
    obtain ⟨_, _, ⟨_, _, rfl⟩ | ⟨_, _, rfl⟩⟩ := tryAcquire_ok done
    · exact .of_schedulers rfl
    · exact .of_schedulers rfl
  | acquire r t => exact .acquire done
  | release r t =>
    simp only [State.serve, bind_ok, pure_ok, Prod.mk.injEq] at done
    obtain ⟨_, released, _, rfl⟩ := done
    exact .release released
  | newScheduler settings g =>
    obtain rfl | ⟨workers, rfl⟩ := addScheduler_ok done
    · exact .of_queue rfl
    · exact .of_queue (queue_addScheduler settings g workers s)
  | stop u =>
    simp only [State.serve, bind_ok, pure_ok, Prod.mk.injEq] at done
    obtain ⟨_, stopped, _, rfl⟩ := done
    have idle : st.queue u = [] := accounts.queue_eq_nil unforced
    obtain rfl := stop_idle idle stopped
    exact .of_queue (queue_stopped idle s)
  | _ => exact .of_schedulers (serve_bookless rfl done).2.1

theorem deeds (accounts : st.Accounts) (deeds : Deeds Unforced st st') : Pushes st st' s := by
  obtain ⟨st₁, st₂, earlier, deed, later⟩ := deeds
  have during : Pushes st₁ st₂ s := by
    cases deed with
    | aside aside => exact .of_schedulers aside.schedulers
    | serve unforced served => exact .serve (accounts.aside earlier).1 unforced served
    | acquire acquired => exact .acquire acquired
    | release released => exact .release released
    | waitFor waited => exact .waitFor waited
  obtain ⟨new, queue, few⟩ := during
  exact ⟨new, by rw [later.queue, queue, earlier.queue], few⟩

end Pushes

/-! ## What a step adds to the histories -/

/-- Whoever was ready or became ready is in line now, or was taken up.  One task at most is, and a running
task that becomes ready does so alone. -/
structure Conserves (st st' : State V C) (s : SchedulerId) : Prop where
  line : st.queue s ++ st.entrants st' s = st.taken st' s ++ st'.queue s
  few : (st.taken st' s).length ≤ 1
  parks : ∀ {t}, st.life t = some .running → st'.readyOn s t = true →
    st.entrants st' s = [t] ∧ st.taken st' s = []

theorem Conserves.before (aside : Aside st st₁) (conserves : Conserves st₁ st' s) : Conserves st st' s where
  line := by
    have line := conserves.line
    rwa [aside.queue, aside.entrants, aside.taken] at line
  few := aside.taken s ▸ conserves.few
  parks {t} live ready := by
    have parks := conserves.parks ((aside.life t).trans live) ready
    rwa [aside.entrants, aside.taken] at parks

theorem mem_entrants_of_parks (still : st.ended? st' = none) (live : st.life t = some .running)
    (ready : st'.readyOn s t = true) : t ∈ st.entrants st' s := by
  rw [entrants, roster, still]
  refine List.mem_filter.2 ⟨mem_ids_of_readyOn ready, ?_⟩
  have out : st.readyOn s t = false := by
    refine Bool.not_eq_true _ ▸ fun earlier => ?_
    simp [life_of_readyOn earlier] at live
  rw [out, ready]
  rfl

/-- A list of one entry at most is all that a filter leaves, if it has the right members. -/
theorem filter_eq_of_mem {l new : List TaskId} {p : TaskId → Bool} (distinct : l.Nodup)
    (few : new.length ≤ 1) (members : ∀ t, t ∈ new ↔ t ∈ l ∧ p t = true) : l.filter p = new := by
  have once : new.Nodup := by
    cases new with
    | nil => exact List.nodup_nil
    | cons t rest =>
      obtain rfl : rest = [] := by simpa using few
      exact List.nodup_singleton t
  have same : (l.filter p).Perm new :=
    (List.perm_ext_iff_of_nodup (distinct.filter p) once).2 fun t => by rw [List.mem_filter, members]
  cases new with
  | nil => exact List.perm_nil.1 same
  | cons t rest =>
    obtain rfl : rest = [] := by simpa using few
    exact List.perm_singleton.1 same

section Conserves

variable (accounts : st.Accounts) (accounts' : st'.Accounts)
include accounts accounts'

/-- Whoever stays in line is not taken up. -/
theorem taken_eq_nil (stays : ∀ t ∈ st.queue s, t ∈ st'.queue s) : st.taken st' s = [] := by
  refine List.filter_eq_nil_iff.2 fun t _ begins => ?_
  simp only [Bool.and_eq_true, decide_eq_true_eq] at begins
  obtain ⟨ready, live⟩ := begins
  have later := stays t (accounts.readyOn_iff_mem.1 ready)
  simp [life_of_readyOn (accounts'.readyOn_iff_mem.2 later)] at live

theorem conserves_of_pushes (pushes : Pushes st st' s) (still : st.ended? st' = none) :
    Conserves st st' s := by
  obtain ⟨new, queue, few⟩ := pushes
  have distinct := accounts'.filed.distinct s
  rw [queue] at distinct
  have entrants : st.entrants st' s = new := by
    rw [State.entrants, roster, still]
    refine filter_eq_of_mem (Table.nodup_ids _) few fun t => ?_
    simp only [Bool.and_eq_true, Bool.not_eq_true', ← Bool.not_eq_true, accounts.readyOn_iff_mem,
      accounts'.readyOn_iff_mem]
    constructor
    · intro inside
      have later : t ∈ st'.queue s := by simp [queue, inside]
      refine ⟨mem_ids_of_readyOn (accounts'.readyOn_iff_mem.2 later), fun earlier => ?_, later⟩
      exact List.disjoint_of_nodup_append distinct earlier inside
    · rintro ⟨_, out, later⟩
      rw [queue] at later
      exact (List.mem_append.1 later).resolve_left out
  have taken := taken_eq_nil accounts accounts' fun t inside =>
    show t ∈ st'.queue s by simp [queue, inside]
  refine ⟨by rw [entrants, taken, queue, List.nil_append], by simp [taken], fun {t} live ready => ?_⟩
  have enters := mem_entrants_of_parks still live ready
  rw [entrants] at enters ⊢
  cases new with
  | nil => cases enters
  | cons u rest =>
    obtain rfl : rest = [] := by simpa using few
    obtain rfl := List.mem_singleton.1 enters
    exact ⟨rfl, taken⟩

theorem conserves_of_takes (line : st.queue s = t :: st'.queue s) (live : st'.life t = some .running)
    (still : st.ended? st' = none) : st.taken st' s = [t] ∧ Conserves st st' s := by
  have entrants : st.entrants st' s = [] := by
    refine List.filter_eq_nil_iff.2 fun u _ enters => ?_
    simp only [Bool.and_eq_true, Bool.not_eq_true', ← Bool.not_eq_true, accounts.readyOn_iff_mem,
      accounts'.readyOn_iff_mem, line] at enters
    exact enters.1 (List.mem_cons_of_mem t enters.2)
  have taken : st.taken st' s = [t] := by
    refine filter_eq_of_mem (Table.nodup_ids _) (by simp) fun u => ?_
    simp only [List.mem_singleton, Bool.and_eq_true, decide_eq_true_eq, accounts.readyOn_iff_mem, line]
    constructor
    · rintro rfl
      obtain ⟨task, found, _⟩ := Option.map_eq_some_iff.1 live
      exact ⟨Table.mem_ids found, List.mem_cons_self, live⟩
    · rintro ⟨_, inside, begins⟩
      refine (List.mem_cons.1 inside).resolve_right fun waits => ?_
      simp [life_of_readyOn (accounts'.readyOn_iff_mem.2 waits)] at begins
  refine ⟨taken, by rw [entrants, taken, List.append_nil, List.singleton_append, line], by simp [taken],
    fun live ready => ?_⟩
  have enters := mem_entrants_of_parks still live ready
  simp [entrants] at enters

theorem conserves_of_ends {result : Except (Error V) V} (ends : Ends st c result st') :
    Conserves st st' s := by
  have ended : st.ended? st' = some c := by
    cases same : st.ended? st' with
    | none =>
      obtain ⟨life, lives, terminal⟩ := ends.terminal
      obtain ⟨task, found, _⟩ := Option.map_eq_some_iff.1 lives
      have nobody := List.find?_eq_none.1 same c (Table.mem_ids found)
      simp [ends.live, lives, terminal] at nobody
    | some t =>
      have ended := List.find?_some same
      simp only [Bool.and_eq_true, decide_eq_true_eq] at ended
      obtain ⟨live, ended⟩ := ended
      by_contra other
      -- Whoever joined the task was woken, and goes on.
      obtain ⟨task, found, lives⟩ := Option.map_eq_some_iff.1 live
      rw [State.life, ends.others fun here => other (congrArg some here), found, Option.map_some,
        Option.map_some, Option.any_some, (Task.Stays.iterate_woken task _).terminal, lives] at ended
      cases ended
  have queue := ends.queue s
  have entrants : st.entrants st' s = (st.joiners c).filter (st.queues s) := by
    rw [State.entrants, roster, ended]
    refine List.filter_congr fun t (joins : t ∈ st.joiners c) => ?_
    obtain ⟨_, awake⟩ := ends.awake joins
    have out : st.readyOn s t = false := by
      refine Bool.not_eq_true _ ▸ fun ready => ?_
      rcases awake with life | life <;> simp [life_of_readyOn ready] at life
    rw [out, Bool.not_false, Bool.true_and, Bool.eq_iff_iff, accounts'.readyOn_iff_mem, queue, List.mem_append,
      List.mem_filter, ← accounts.readyOn_iff_mem, out]
    simp [joins]
  have taken := taken_eq_nil accounts accounts' fun t inside =>
    show t ∈ st'.queue s by simp [queue, inside]
  refine ⟨by rw [entrants, taken, queue, List.nil_append], by simp [taken], fun {t} live ready => ?_⟩
  -- Those who wait for the end of a task are parked already.
  rw [accounts'.readyOn_iff_mem, queue, List.mem_append, ← accounts.readyOn_iff_mem, List.mem_filter] at ready
  rcases ready with earlier | ⟨_, queues⟩
  · simp [life_of_readyOn earlier] at live
  · obtain ⟨task, found, queues⟩ := (Option.any_eq_true _ _).1 queues
    simp only [Bool.and_eq_true, decide_eq_true_eq] at queues
    simp [life_of_get? found, queues.1.1] at live

end Conserves

theorem Persists.ended?_eq_none (persists : Persists st st') : st.ended? st' = none := by
  refine State.ended?_eq_none fun t live life lives => ?_
  obtain ⟨task, found, runs⟩ := Option.map_eq_some_iff.1 live
  obtain ⟨task', found', rfl⟩ := Option.map_eq_some_iff.1 lives
  cases persists.tasks found' with
  | inr new => simp [found] at new
  | inl old =>
    obtain ⟨before, found'', stays⟩ := old
    obtain rfl := Option.some.inj (found.symm.trans found'')
    rw [stays.terminal, runs]
    rfl

/-- The oldest ready task of a scheduler is taken up. -/
theorem Accounts.takes (accounts : st.Accounts) {w : Worker} (taken : st.takeReady s = .ok (some t, st₁))
    (begun : st₁.beginRun t w = .ok st') :
    st.taken st' s = [t] ∧ ∀ u, Conserves st st' u ∧ (u ≠ s → st.taken st' u = []) := by
  obtain ⟨accounts', task, found, ready, becomes⟩ := accounts.begins taken begun
  rcases takeReady_ok taken with ⟨impossible, _⟩ | ⟨_, rest, same, known, line, rfl⟩
  · cases impossible
  obtain rfl := Option.some.inj same
  have first : Becomes st t { task with linked := false } (st.dequeued t s rest) := becomes_modifyTask found _
  have queue : ∀ u, st'.queue u = if u = s then rest.toList else st.queue u := by
    obtain ⟨_, rfl⟩ := beginRun_ok first.self begun
    exact @queue_dequeued _ _ st t s rest known
  have live : st'.life t = some .running := life_of_get? becomes.self
  have still : st.ended? st' = none := by
    refine State.ended?_eq_none fun u running life lives => ?_
    by_cases here : u = t
    · subst here
      obtain rfl := Option.some.inj (live.symm.trans lives)
      rfl
    · rw [State.life, becomes.other here] at lives
      obtain rfl := Option.some.inj (running.symm.trans lives)
      rfl
  have shorter : st.queue s = t :: st'.queue s := by rw [queue, if_pos rfl, line]
  have here := conserves_of_takes accounts accounts' shorter live still
  refine ⟨here.1, fun u => ?_⟩
  by_cases own : u = s
  · subst own
    exact ⟨here.2, fun other => absurd rfl other⟩
  · have same : st'.queue u = st.queue u := by rw [queue, if_neg own]
    refine ⟨conserves_of_pushes accounts accounts' (.of_queue same) still, fun _ => ?_⟩
    exact taken_eq_nil accounts accounts' fun v inside => same ▸ inside

end State

namespace Crew

variable [Inhabited V] {c c' : Crew V C} {s : SchedulerId}

/-- A step of a thread keeps to the order, and takes up no task of a scheduler unless the thread is about to
run one. -/
theorem conserves_act {st : State V C} {before after : List (Agent V C)} {a : Agent V C} {config : Config V C}
    (accounts : st.Accounts) (unforced : Unforced ⟨st, before ++ a :: after⟩ a)
    (step : (a.config st).step = .ok config) (s : SchedulerId) :
    st.Conserves config.state s ∧ (a.focus.takes? ≠ some s → st.taken config.state s = []) := by
  have permitted : ∀ request next, (a.config st).focus = .code (.ask request next) →
      State.Unforced (a.config st).state request := by
    intro request next focus
    simp only [Unforced, show a.focus = .code (.ask request next) from focus] at unforced
    exact unforced
  cases Config.course_of_step permitted step with
  | deeds deeds =>
    obtain ⟨accounts', persists⟩ := accounts.deeds deeds
    have pushes : State.Pushes st config.state s := .deeds accounts deeds
    refine ⟨State.conserves_of_pushes accounts accounts' pushes persists.ended?_eq_none, fun _ => ?_⟩
    exact State.taken_eq_nil accounts accounts' fun t => pushes.mem
  | @begins t w st₁ taken begun =>
    rcases taken with ⟨u, takes, taken⟩ | ⟨⟨index, own⟩, _⟩
    · obtain ⟨conserves, elsewhere⟩ := (accounts.takes taken begun).2 s
      refine ⟨conserves, fun other => elsewhere ?_⟩
      rintro rfl
      exact other takes
    · simp only [Unforced, show a.focus = .own t index from own] at unforced
  | @parks t st₁ aside parked =>
    replace aside : State.Aside st st₁ := aside
    obtain ⟨accounts₁, _⟩ := accounts.aside aside
    obtain ⟨accounts', task, found, live, _, becomes⟩ := accounts₁.parks parked
    have pushes : State.Pushes st₁ config.state s := .park parked
    have still : st₁.ended? config.state = none := by
      refine State.ended?_eq_none fun u running life lives => ?_
      by_cases here : u = t
      · subst here
        rw [State.life_of_get? becomes.self] at lives
        obtain rfl := Option.some.inj lives
        unfold Task.parked
        split <;> rfl
      · rw [State.life, becomes.other here] at lives
        obtain rfl := Option.some.inj (running.symm.trans lives)
        rfl
    refine ⟨.before aside (State.conserves_of_pushes accounts₁ accounts' pushes still), fun _ => ?_⟩
    rw [← State.Aside.taken aside]
    exact State.taken_eq_nil accounts₁ accounts' fun t => pushes.mem
  | @finishes t result st₁ aside finished =>
    replace aside : State.Aside st st₁ := aside
    obtain ⟨accounts₁, _⟩ := accounts.aside aside
    obtain ⟨accounts', _⟩ := accounts₁.finishes finished
    obtain ⟨task, found⟩ := State.exists_of_task finished
    have ends : State.Ends st₁ t result config.state :=
      State.ends_of_finish found (State.becomes_refl found) rfl rfl rfl rfl finished
    refine ⟨.before aside (State.conserves_of_ends accounts₁ accounts' ends), fun _ => ?_⟩
    rw [← State.Aside.taken aside]
    exact State.taken_eq_nil accounts₁ accounts' fun t inside =>
      show t ∈ config.state.queue s by simp [ends.queue, inside]

theorem Step.conserves {label : Option (TaskId × FrameId)} (accountable : c.Accountable)
    (step : Step Unforced c label c') (s : SchedulerId) : c.state.Conserves c'.state s := by
  have still : ∀ st : State V C, st.Accounts → State.Aside c.state st → c.state.Conserves st s := by
    intro st accounts aside
    refine State.conserves_of_pushes accountable.accounts accounts (.of_queue (aside.queue s)) ?_
    exact (accountable.accounts.aside aside).2.ended?_eq_none
  cases step with
  | act unforced step => exact (conserves_act accountable.accounts unforced step s).1
  | join | lapse => exact still _ accountable.accounts (.refl _)
  | @switch st agents thread =>
    have aside : State.Aside st { st with running := thread } := .of_tables rfl rfl (fun _ => rfl) fun _ => rfl
    exact still _ (accountable.accounts.aside aside).1 aside

namespace Run

variable (run : Run V C Unforced)

/-- The tasks of a scheduler that became ready in so many steps, in order. -/
def arrivals (s : SchedulerId) : Nat → List TaskId
  | 0 => []
  | i + 1 => arrivals s i ++ (run.crew i).state.entrants (run.crew (i + 1)).state s

/-- The ready tasks of a scheduler whose runs began in so many steps, in order. -/
def picks (s : SchedulerId) : Nat → List TaskId
  | 0 => []
  | i + 1 => picks s i ++ (run.crew i).state.taken (run.crew (i + 1)).state s

/-- Whoever became ready was run in that order, or is ready still. -/
theorem arrivals_eq (s : SchedulerId) : ∀ i ≤ run.length,
    run.arrivals s i = run.picks s i ++ (run.crew i).state.queue s := by
  intro i
  induction i with
  | zero =>
    intro _
    obtain ⟨parallelism, starts⟩ := run.starts
    simp [arrivals, picks, starts, initial, State.initial, State.queue]
  | succ i inductionHypothesis =>
    intro bound
    have conserves := (run.steps i bound).conserves (run.accountable i (by omega)) s
    rw [arrivals, picks, inductionHypothesis (by omega), List.append_assoc, conserves.line, List.append_assoc]

/-- The run of a task ends in a step, and the task is ready again: it yielded, or was woken before. -/
def Yields (s : SchedulerId) (t : TaskId) (i : Nat) : Prop :=
  (run.crew i).state.life t = some .running ∧ (run.crew (i + 1)).state.readyOn s t = true

/-- The run of a ready task begins in a step. -/
def Begins (s : SchedulerId) (t : TaskId) (i : Nat) : Prop :=
  t ∈ (run.crew i).state.taken (run.crew (i + 1)).state s

variable {run} {s : SchedulerId} {t : TaskId} {i j : Nat}

theorem prefix_of_steps {history : Nat → List TaskId} {new : Nat → List TaskId}
    (grows : ∀ i, history (i + 1) = history i ++ new i) (later : i ≤ j) : history i <+: history j := by
  induction j, later using Nat.le_induction with
  | base => exact List.prefix_refl _
  | succ j _ inductionHypothesis => exact inductionHypothesis.trans (grows j ▸ List.prefix_append _ _)

theorem mem_picks_of_prefix {earlier : List TaskId} (later : i ≤ j) (line : run.picks s j = run.picks s i ++ earlier)
    (inside : t ∈ earlier) : ∃ k, i ≤ k ∧ k < j ∧ run.Begins s t k := by
  induction j, later using Nat.le_induction generalizing earlier with
  | base =>
    obtain rfl : earlier = [] := by simpa using line
    cases inside
  | succ j later inductionHypothesis =>
    obtain ⟨since, picked⟩ := prefix_of_steps (fun i => rfl : ∀ i, run.picks s (i + 1) = _) later
    rw [picks, ← picked, List.append_assoc, List.append_cancel_left_eq] at line
    rw [← line] at inside
    rcases List.mem_append.1 inside with before | now
    · obtain ⟨k, after, within, begins⟩ := inductionHypothesis picked.symm before
      exact ⟨k, after, by omega, begins⟩
    · exact ⟨j, later, by omega, now⟩

/-- A task that yields is run again when all that were ready before it have been run, each once, and nobody
else has. -/
theorem picks_of_yields (yields : run.Yields s t i) (later : i < j) (bound : j < run.length)
    (begins : run.Begins s t j) (first : ∀ k, i < k → k < j → ¬ run.Begins s t k) :
    run.picks s (j + 1) = run.picks s i ++ (run.crew i).state.queue s ++ [t] := by
  have accounts := (run.accountable i (by omega)).accounts
  have parks := (run.steps i (by omega)).conserves (run.accountable i (by omega)) s
  obtain ⟨enters, nobody⟩ := parks.parks yields.1 yields.2
  have few := ((run.steps j bound).conserves (run.accountable j bound.le) s).few
  have taken : (run.crew j).state.taken (run.crew (j + 1)).state s = [t] := by
    obtain ⟨u, same⟩ := List.length_eq_one_iff.1 (Nat.le_antisymm few (List.length_pos_of_mem begins))
    rw [Begins, same, List.mem_singleton] at begins
    rw [same, begins]
  have before : run.picks s (i + 1) = run.picks s i := by rw [picks, nobody, List.append_nil]
  obtain ⟨between, picked⟩ := prefix_of_steps (fun i => rfl : ∀ i, run.picks s (i + 1) = _) (show i + 1 ≤ j from later)
  have apart : t ∉ between := by
    intro inside
    obtain ⟨k, after, within, again⟩ := mem_picks_of_prefix later picked.symm inside
    exact first k after within again
  -- The task is the first of those that became ready in the step, and was not in line before.
  have out : t ∉ (run.crew i).state.queue s := by
    intro inside
    have ready := State.life_of_readyOn (accounts.readyOn_iff_mem.2 inside)
    simp [yields.1] at ready
  obtain ⟨more, arrived⟩ := prefix_of_steps (fun i => rfl : ∀ i, run.arrivals s (i + 1) = _)
    (show i + 1 ≤ j + 1 by omega)
  rw [run.arrivals_eq s (j + 1) bound, arrivals, run.arrivals_eq s i (by omega), enters, picks, taken, ← picked,
    before] at arrived
  have line : (run.crew i).state.queue s ++ t :: more = between ++ t :: (run.crew (j + 1)).state.queue s := by
    simpa only [List.append_assoc, List.append_cancel_left_eq, List.singleton_append] using arrived
  have same : (run.crew i).state.queue s = between := before_eq_of_notMem out apart line
  rw [picks, taken, ← picked, before, same]

end Run

end Crew

end Tasking
