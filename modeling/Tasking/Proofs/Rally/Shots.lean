import Tasking.Proofs.Commuting
import Tasking.Proofs.Dealing
import Tasking.Proofs.Joins
import Tasking.Proofs.Rally.Hand

/-! # The run of a player

In each of its runs a player sends one message and gets the reply: the actor is free whenever a run begins, so the
guard of the message takes the lock at once, and gives it up before the run is over.  There is one lemma for
each step of such a run, and `yields` and `finishes` put them together.
-/

namespace Tasking

namespace State

variable {V C : Type} {st : State V C} {f g : FrameId} {chain below : List FrameId}

/-- The walk down a chain meets nothing else. -/
theorem Linked.mem_of_chainUpTo (linked : st.Linked (f :: below)) (bound : Nat)
    (met : g ∈ st.chainUpTo bound f) : g ∈ f :: below := by
  induction bound generalizing f below with
  | zero => cases met
  | succ bound inductionHypothesis =>
    have link : (st.frames.get? f).bind Frame.caller = below.head? := linked.1
    rw [chainUpTo, link] at met
    cases below with
    | nil => exact met
    | cons next rest =>
      cases List.mem_cons.1 met with
      | inl same => exact List.mem_cons.2 (.inl same)
      | inr met => exact List.mem_cons_of_mem _ (inductionHypothesis linked.2 met)

/-- A frame that is not on a chain may be put on top of it. -/
theorem attach_apart (linked : st.Linked chain) (known : (st.frames.get? g).isSome = true) (apart : g ∉ chain) :
    st.attach g chain.head? = .ok (st.attached g chain.head?) := by
  obtain ⟨frame, found⟩ := Option.isSome_iff_exists.1 known
  have off : st.isOnChain g chain.head? = false := by
    rw [← Bool.not_eq_true, isOnChain_iff]
    cases chain with
    | nil => simp [chainOf]
    | cons f below => exact fun met => apart (linked.mem_of_chainUpTo _ met)
  rw [attach, frame_ok.2 found, off]
  rfl

/-- A task that is counted is taken off the books. -/
theorem retire_eq {t : TaskId} {task : Task V} {scheduler : Scheduler} (found : st.tasks.get? t = some task)
    (known : st.schedulers.get? task.scheduler = some scheduler) (tasks : 1 ≤ scheduler.tasks)
    (runnable : 1 ≤ scheduler.runnable) :
    st.retire t = .ok ((st.modifyTask t fun task => { task with listed := false }).modifyScheduler task.scheduler
      fun s => { s with tasks := s.tasks - 1, runnable := s.runnable - 1 }) := by
  let unlisted := st.modifyTask t fun task => { task with listed := false }
  have first : unlisted.adjust task.scheduler .tasks (-1) =
      .ok (unlisted.modifyScheduler task.scheduler fun s => { s with tasks := s.tasks - 1 }) :=
    adjust_eq _ known (by simp only [Scheduler.count]; omega) rfl
  have known' : (unlisted.modifyScheduler task.scheduler fun s => { s with tasks := s.tasks - 1 }).schedulers.get?
      task.scheduler = some { scheduler with tasks := scheduler.tasks - 1 } := by
    simp only [get?_modifyScheduler, if_true]
    exact congrArg _ known
  have second : (unlisted.modifyScheduler task.scheduler fun s => { s with tasks := s.tasks - 1 }).adjust task.scheduler
      .runnable (-1) = .ok ((unlisted.modifyScheduler task.scheduler fun s => { s with tasks := s.tasks - 1 }).modifyScheduler
        task.scheduler fun s => { s with runnable := s.runnable - 1 }) :=
    adjust_eq _ known' (by simp only [Scheduler.count]; omega) rfl
  rw [modifyScheduler_modifyScheduler] at second
  exact bind_ok.2 ⟨_, task_ok.2 found, bind_ok.2 ⟨_, first, second⟩⟩

end State

namespace Scenario.Pingpong

open State

/-- A run of a task is in progress, the thread need not wait, and nothing happened to schedulers. -/
structure Playing (schedulers : Table .scheduler Scheduler) (c : Config Datum Nat) : Prop where
  running : c.Busy
  able : Pool.status c = .busy
  same : c.state.schedulers = schedulers

variable {st : State Datum Nat} {p : Shot} {rounds : Nat} {entry f target caller : FrameId} {caller? : Option FrameId} {hand : Hand}
  {after : Focus Datum Nat} {stack : List (Activation Datum Nat)} {base : Task Datum} {value : Datum} {resumes : Nat}
  {letter : Letter} {owner : Option TaskId} {rally : Rally} {inUse : Bool} {sheet : Sheet}

section

variable (laid : Laid rounds p entry st)
include laid

/-! ## What frames do -/

theorem entry_ne_guard : entry ≠ nextGuard st := by
  intro same
  have old := ((st.frames.isSome_get?_iff entry).1 (by simp [laid.entry])).2
  simp only [same, nextGuard] at old
  omega

theorem pause_on (hand : Hand) (f : FrameId) :
    (hand.on p st).pause p.task f = .ok (({ hand with top := f } : Hand).on p st) :=
  bind_ok.2 ⟨_, task_ok.2 (Hand.get?_task laid hand),
    congrArg Except.ok (Hand.modifyTask hand hand.base f hand.value rfl)⟩

/-- A frame on top is resumed with what its task has for it. -/
theorem step_resume (hand : Hand) (opened : Option ExclusiveId) {program : Program Datum Nat} {st' : State Datum Nat}
    (resumed : (({ hand with value := .unit } : Hand).on p st).resume p.task hand.top hand.value none =
      .ok (⟨program, opened⟩, st')) :
    Config.step ⟨hand.on p st, .trampoline p.task after, stack⟩ =
      .ok ⟨st', .code program, (opened.map Activation.opened).toList ++ .frame p.task hand.top after :: stack⟩ := by
  refine bind_ok.2 ⟨_, task_ok.2 (Hand.get?_task laid hand), ?_⟩
  have unloaded := @Hand.modifyTask p st hand (fun task => { task with value := default, error := none }) hand.base hand.top .unit rfl
  simp only [Hand.task, Config.mapState, unloaded]
  refine bind_ok.2 ⟨_, resumed, ?_⟩
  cases opened <;> rfl

/-- A frame jumps to the one that it has put on top. -/
theorem step_jump (hand : Hand) (known : ((hand.on p st).frames.get? f).isSome = true) (apart : f ≠ hand.top)
    (value : Datum) :
    Config.step ⟨hand.on p st, .code (.answer (.jump hand.top value)), .frame p.task f after :: stack⟩ =
      .ok ⟨({ hand with value := value } : Hand).on p st, .trampoline p.task after, stack⟩ := by
  obtain ⟨sheet, found⟩ := Option.isSome_iff_exists.1 known
  refine bind_ok.2 ⟨_, task_ok.2 (Hand.get?_task laid hand), bind_ok.2 ⟨sheet, frame_ok.2 found, ?_⟩⟩
  have here : (if hand.task.top = some f ∧ f ≠ hand.top then sheet.caller else hand.task.top) = some hand.top :=
    if_neg fun both => apart (Option.some.inj both.1).symm
  have still := @Hand.modifyTask p st hand (fun task => { task with top := some hand.top })
    hand.base hand.top hand.value rfl
  have landed := @Hand.modifyTask p st hand (fun task => { task with top := some hand.top, value := value, error := none }) hand.base hand.top value rfl
  simp only [here, if_true, Config.mapState, Config.goTo, Config.landAt, still, landed, pure_ok]

/-- A frame that was called finishes. -/
theorem step_return (hand : Hand) (known : (hand.on p st).frames.get? hand.top = some sheet)
    (called : sheet.caller = some caller) (value : Datum) :
    Config.step ⟨hand.on p st, .code (.answer (.done value)), .frame p.task hand.top after :: stack⟩ =
      .ok ⟨({ hand with top := caller, value := value } : Hand).on p st, .trampoline p.task after, stack⟩ := by
  refine bind_ok.2 ⟨_, task_ok.2 (Hand.get?_task laid hand), check_ok.2 ⟨by simp [Hand.task], ?_⟩⟩
  refine bind_ok.2 ⟨sheet, frame_ok.2 known, ?_⟩
  have returned := @Hand.modifyTask p st hand (fun task => Config.returnTo task caller (.ok value)) hand.base caller value rfl
  simp only [called, Config.mapState, Config.goTo, returned, pure_ok]

/-! ## What the player does -/

/-- The player is resumed. -/
theorem step_player (hand : Hand) (top : hand.top = entry) :
    Config.step ⟨hand.on p st, .trampoline p.task after, stack⟩ =
      .ok ⟨({ hand with value := .unit } : Hand).on p st,
        .code (player actor p rounds p.cell ⟨p.task, entry⟩ hand.value none), .frame p.task entry after :: stack⟩ := by
  subst top
  exact step_resume laid hand none (bind_ok.2 ⟨_, frame_ok.2 (Hand.get?_entry laid _), rfl⟩)

theorem step_read (hand : Hand) {next : Nat → Program Datum Nat} :
    Config.step ⟨hand.on p st, .code (.ask (.read p.cell) next), stack⟩ =
      .ok ⟨hand.on p st, .code (next hand.resumes), stack⟩ :=
  bind_ok.2 ⟨(hand.resumes, hand.on p st), bind_ok.2 ⟨_, find_ok.2 (Hand.get?_cell laid hand), rfl⟩, rfl⟩

omit laid in
theorem step_write (hand : Hand) {next : Unit → Program Datum Nat} (k : Nat) :
    Config.step ⟨hand.on p st, .code (.ask (.write p.cell k) next), stack⟩ =
      .ok ⟨({ hand with resumes := k } : Hand).on p st, .code (next ()), stack⟩ := by
  rw [← Hand.write hand k]
  rfl

/-- The player makes a message. -/
theorem step_newMessage {next : FrameId → Program Datum Nat} :
    Config.step ⟨(⟨base, f, value, resumes, none, owner, rally, inUse⟩ : Hand).on p st,
      .code (.ask (.newMessage actor (.shot p)) next), stack⟩ =
      .ok ⟨(⟨base, f, value, resumes, some ⟨bodySheet p none false, guardSheet none (.start (nextBody st))⟩, owner, rally,
        inUse⟩ : Hand).on p st, .code (next (nextGuard st)), stack⟩ := by
  refine bind_ok.2 ⟨_, bind_ok.2 ⟨_, actor_ok.2 laid.actor,
    bind_ok.2 ⟨_, exclusive_ok.2 (Hand.get?_score laid _), rfl⟩⟩, ?_⟩
  simp [Hand.on, Hand.task, withLetter, State.addGuard, State.addFrame, bodySheet, guardSheet, nextBody, nextGuard,
    next_add, pure, Except.pure]

/-- The player puts the guard of the message on top of itself. -/
theorem step_attach {next : Unit → Program Datum Nat} :
    Config.step ⟨(⟨base, f, value, resumes, some letter, owner, rally, inUse⟩ : Hand).on p st,
      .code (.ask (.attach (nextGuard st) (some entry)) next), stack⟩ =
      .ok ⟨(⟨base, f, value, resumes, some { letter with guard := { letter.guard with caller := some entry } }, owner,
        rally, inUse⟩ : Hand).on p st, .code (next ()), stack⟩ := by
  have linked : ((⟨base, f, value, resumes, some letter, owner, rally, inUse⟩ : Hand).on p st).Linked [entry] :=
    ⟨by simp [State.caller, Hand.get?_entry laid, playerSheet], trivial⟩
  have apart : nextGuard st ∉ [entry] := by simpa using (entry_ne_guard laid).symm
  have attached := attach_apart linked (by simp [Hand.get?_guard]) apart
  rw [State.attached, Hand.modifyGuard] at attached
  exact bind_ok.2 ⟨_, bind_ok.2 ⟨_, attached, rfl⟩, rfl⟩

theorem step_pause (hand : Hand) (f : FrameId) {next : Unit → Program Datum Nat} :
    Config.step ⟨hand.on p st, .code (.ask (.pause p.task f) next), stack⟩ =
      .ok ⟨({ hand with top := f } : Hand).on p st, .code (next ()), stack⟩ :=
  bind_ok.2 ⟨_, bind_ok.2 ⟨_, pause_on laid hand f, rfl⟩, rfl⟩

/-! ## What becomes of the message -/

/-- The guard of the message calls its body. -/
theorem callFrame_body (called : letter.guard.caller = some entry) (given : Datum) :
    ((⟨base, f, value, resumes, some letter, owner, rally, inUse⟩ : Hand).on p st).callFrame p.task (nextGuard st)
        (nextBody st) given =
      .ok (.jump (nextBody st) given, (⟨base, nextBody st, value, resumes,
        some { letter with body := { letter.body with caller := some (nextGuard st) } }, owner, rally, inUse⟩ : Hand).on
          p st) := by
  have linked : ((⟨base, f, value, resumes, some letter, owner, rally, inUse⟩ : Hand).on p st).Linked
      [nextGuard st, entry] :=
    ⟨by simp [State.caller, Hand.get?_guard, called],
      by simp [State.caller, Hand.get?_entry laid, playerSheet], trivial⟩
  have apart : nextBody st ∉ [nextGuard st, entry] := by
    have ahead : nextBody st ≠ nextGuard st := next_ne st.frames
    have old : nextBody st ≠ entry := (Table.ne_next_of_get? laid.entry).symm
    simp [ahead, old]
  have attached := attach_apart linked (by simp [Hand.get?_body]) apart
  rw [State.attached, Hand.modifyBody] at attached
  exact bind_ok.2 ⟨_, attached, bind_ok.2 ⟨_, pause_on laid _ (nextBody st), rfl⟩⟩

/-- The guard of the message finds the lock free, takes it and calls its body. -/
theorem step_take :
    Config.step ⟨(⟨base, nextGuard st, value, resumes,
        some ⟨bodySheet p none false, guardSheet (some entry) (.start (nextBody st))⟩, none, rally, inUse⟩ : Hand).on p st,
      .trampoline p.task after, stack⟩ =
      .ok ⟨(⟨base, nextBody st, .unit, resumes,
          some ⟨bodySheet p (some (nextGuard st)) false, guardSheet (some entry) .held⟩, some p.task, rally, inUse⟩ :
            Hand).on p st,
        .code (.answer (.jump (nextBody st) value)), .frame p.task (nextGuard st) after :: stack⟩ := by
  refine step_resume laid ⟨base, nextGuard st, value, resumes,
    some ⟨bodySheet p none false, guardSheet (some entry) (.start (nextBody st))⟩, none, rally, inUse⟩ none ?_
  refine bind_ok.2 ⟨_, frame_ok.2 Hand.get?_guard, bind_ok.2 ⟨(.jump (nextBody st) value, _), ?_, rfl⟩⟩
  rw [resumeGuard, State.setCode, Hand.modifyGuard]
  refine bind_ok.2 ⟨(.ok .acquired, _), acquire_free ?_ ?_ ?_, ?_⟩
  · simp [Hand.get?_lock laid]
  · simp [Hand.get?_task laid]
  · simp [State.owner, Hand.get?_lock laid]
  · rw [Hand.setOwner]
    simp only [State.setCode, Hand.modifyGuard]
    exact callFrame_body laid rfl value

/-- The body opens the state of the actor and runs the handler. -/
theorem step_deliver (guard : Sheet) :
    Config.step ⟨(⟨base, nextBody st, value, resumes, some ⟨bodySheet p caller? false, guard⟩, some p.task, rally,
        false⟩ : Hand).on p st, .trampoline p.task after, stack⟩ =
      .ok ⟨(⟨base, nextBody st, .unit, resumes, some ⟨bodySheet p caller? true, guard⟩, some p.task, rally, true⟩ :
          Hand).on p st,
        .code (handler ⟨p.task, nextBody st⟩ score (.shot p)),
        .opened score :: .frame p.task (nextBody st) after :: stack⟩ := by
  refine step_resume laid ⟨base, nextBody st, value, resumes, some ⟨bodySheet p caller? false, guard⟩, some p.task, rally,
    false⟩ (some score) ?_
  refine bind_ok.2 ⟨_, frame_ok.2 Hand.get?_body, ?_⟩
  simp only [bodySheet, State.resumeMessage, State.setCode, Hand.modifyBody]
  refine bind_ok.2 ⟨_, actor_ok.2 laid.actor, bind_ok.2 ⟨true, ?_, ?_⟩⟩
  · refine bind_ok.2 ⟨_, exclusive_ok.2 (Hand.get?_score laid _), ?_⟩
    have owns : ((⟨base, nextBody st, .unit, resumes, some ⟨bodySheet p caller? true, guard⟩, some p.task, rally,
        false⟩ : Hand).on p st).owns p.task lock = true := by
      simp [State.owns, Hand.get?_lock laid]
    exact if_pos owns
  · rw [if_pos rfl, Hand.openPayload]
    rfl

/-- The handler looks at the state of the actor. -/
theorem step_exclusive (hand : Hand) {next : Exclusive Datum → Program Datum Nat} :
    Config.step ⟨hand.on p st, .code (.ask (.exclusive score) next), stack⟩ =
      .ok ⟨hand.on p st, .code (next ⟨lock, .rally hand.rally, hand.inUse⟩), stack⟩ :=
  bind_ok.2 ⟨(_, hand.on p st), bind_ok.2 ⟨_, exclusive_ok.2 (Hand.get?_score laid hand), rfl⟩, rfl⟩

omit laid in
theorem step_setPayload (hand : Hand) (rally : Rally) {next : Unit → Program Datum Nat} :
    Config.step ⟨hand.on p st, .code (.ask (.setPayload score (.rally rally)) next), stack⟩ =
      .ok ⟨({ hand with rally := rally } : Hand).on p st, .code (next ()), stack⟩ := by
  rw [← Hand.setPayload hand rally]
  rfl

omit laid in
theorem step_close (hand : Hand) (a : Answer Datum) :
    Config.step ⟨hand.on p st, .code (.answer a), .opened score :: stack⟩ =
      .ok ⟨({ hand with inUse := false } : Hand).on p st, .code (.answer a), stack⟩ := by
  rw [← Hand.closePayload hand]
  rfl

/-- The guard gives the lock up and passes the reply on. -/
theorem step_letGo (body : Sheet) :
    Config.step ⟨(⟨base, nextGuard st, value, resumes, some ⟨body, guardSheet caller? .held⟩, some p.task, rally, inUse⟩ :
        Hand).on p st, .trampoline p.task after, stack⟩ =
      .ok ⟨(⟨base, nextGuard st, .unit, resumes, some ⟨body, guardSheet caller? .released⟩, none, rally, inUse⟩ : Hand).on
          p st, .code (.answer (.done value)), .frame p.task (nextGuard st) after :: stack⟩ := by
  refine step_resume laid ⟨base, nextGuard st, value, resumes, some ⟨body, guardSheet caller? .held⟩, some p.task, rally,
    inUse⟩ none ?_
  refine bind_ok.2 ⟨_, frame_ok.2 Hand.get?_guard, bind_ok.2 ⟨(.done value, _), ?_, rfl⟩⟩
  rw [resumeGuard, State.setCode, Hand.modifyGuard]
  refine bind_ok.2 ⟨_, bind_ok.2 ⟨_, resource_ok.2 (Hand.get?_lock laid _), check_ok.2 ⟨by simp, ?_⟩⟩, rfl⟩
  exact congrArg Except.ok (Hand.setOwner _ none)

/-! ## How the run ends -/

/-- The player yields. -/
theorem step_yield (hand : Hand) (live : hand.base.life = .running) {next : Unit → Program Datum Nat} :
    Config.step ⟨hand.on p st, .code (.ask (.yield p.task) next), stack⟩ =
      .ok ⟨({ hand with base := { hand.base with notified := true } } : Hand).on p st, .code (next ()), stack⟩ := by
  have noted := @Hand.modifyTask p st hand (fun task => { task with notified := true })
    { hand.base with notified := true } hand.top hand.value rfl
  refine bind_ok.2 ⟨((), _), bind_ok.2 ⟨_, bind_ok.2 ⟨_, task_ok.2 (Hand.get?_task laid hand), ?_⟩, rfl⟩, rfl⟩
  rw [noted]
  exact check_ok.2 ⟨by simp [Hand.task, live], rfl⟩

/-- A frame of a player that yielded suspends, and the player is ready again. -/
theorem step_suspend (hand : Hand) (live : hand.base.life = .running) (notified : hand.base.notified = true)
    (shared : hand.base.bound = none) (free : hand.base.linked = false) :
    Config.step ⟨hand.on p st, .code (.answer .suspended), .frame p.task f after :: stack⟩ =
      .ok ⟨(({ hand with base := { hand.base with worker := none, life := .ready, notified := false, linked := true } } :
          Hand).on p st).modifyScheduler hand.base.scheduler fun s => { s with ready := s.ready.push p.task },
        after, stack⟩ := by
  let stopped : Hand := { hand with base := { hand.base with worker := none } }
  let awake : Hand := { hand with base := { hand.base with worker := none, life := .ready, notified := false } }
  have stops : (hand.on p st).endRun p.task = stopped.on p st := Hand.modifyTask hand stopped.base hand.top hand.value rfl
  have wakes : (stopped.on p st).setLife p.task .ready = awake.on p st :=
    Hand.modifyTask stopped awake.base hand.top hand.value rfl
  have queues : (awake.on p st).schedule p.task = .ok ((({ hand with base := { hand.base with
      worker := none, life := .ready, notified := false, linked := true } } : Hand).on p st).modifyScheduler
        hand.base.scheduler fun s => { s with ready := s.ready.push p.task }) := by
    have claims := @Hand.modifyTask p st awake (fun task => { task with linked := true })
      { awake.base with linked := true } hand.top hand.value rfl
    refine bind_ok.2 ⟨_, task_ok.2 (Hand.get?_task laid awake), ?_⟩
    rw [if_neg (by simp [awake, Hand.task, shared])]
    refine bind_ok.2 ⟨_, bind_ok.2 ⟨_, task_ok.2 (Hand.get?_task laid awake), check_ok.2 ⟨?_, rfl⟩⟩, ?_⟩
    · simp [awake, Hand.task, free]
    · rw [claims]
      rfl
  have parks : (stopped.on p st).park p.task = (awake.on p st).schedule p.task := by
    rw [← wakes, State.park, task_ok.2 (Hand.get?_task laid stopped)]
    simp [stopped, Hand.task, live, notified, bind, Except.bind]
  exact bind_ok.2 ⟨_, bind_ok.2 ⟨_, (congrArg (·.park p.task) stops).trans (parks.trans queues), rfl⟩, rfl⟩

/-- The task of a player that has finished with a value. -/
def ended (base : Task Datum) (value : Datum) : Task Datum :=
  { base with
    life := .done, notified := false, top := none, value := .unit, error := none, worker := none
    outcome := some (.done value), joiners := .empty, listed := false }

/-- The player finishes. -/
theorem step_end (hand : Hand) (top : hand.top = entry) (live : hand.base.life = .running)
    (alone : hand.base.joiners = .empty) {scheduler : Scheduler}
    (found : st.schedulers.get? hand.base.scheduler = some scheduler) (tasks : 1 ≤ scheduler.tasks)
    (runnable : 1 ≤ scheduler.runnable) (value : Datum) :
    Config.step ⟨hand.on p st, .code (.answer (.done value)), .frame p.task entry after :: stack⟩ =
      .ok ⟨((hand.on p st).modifyTask p.task fun _ => ended hand.base value).modifyScheduler hand.base.scheduler
          fun s => { s with tasks := s.tasks - 1, runnable := s.runnable - 1 }, after, stack⟩ := by
  subst top
  refine bind_ok.2 ⟨_, task_ok.2 (Hand.get?_task laid hand), check_ok.2 ⟨by simp [Hand.task], ?_⟩⟩
  refine bind_ok.2 ⟨_, frame_ok.2 (Hand.get?_entry laid hand), ?_⟩
  refine bind_ok.2 ⟨_, bind_ok.2 ⟨_, ?_, rfl⟩, rfl⟩
  have found' : ∀ f, ((hand.on p st).modifyTask p.task f).tasks.get? p.task = some (f hand.task) := fun f => by
    simp [get?_modifyTask, Hand.get?_task laid hand]
  simp only [State.endRun, State.finish, State.setLife, modifyTask_modifyTask]
  refine bind_ok.2 ⟨_, task_ok.2 (found' _), check_ok.2 ⟨by simp [Hand.task, live], ?_⟩⟩
  refine bind_ok.2 ⟨(hand.on p st).modifyTask p.task fun _ => { ended hand.base value with listed := hand.base.listed }, ?_, ?_⟩
  · simp only [Hand.task, alone, Line.toList_empty, State.readyAll, pure_ok]
    exact modifyTask_congr (Hand.get?_task laid hand) (by simp [ended, Hand.task, alone, finalLife, outcomeOf]; rfl)
  · have retired := retire_eq (found' fun _ => { ended hand.base value with listed := hand.base.listed }) found tasks runnable
    rwa [modifyTask_modifyTask] at retired

/-! ## Whole runs -/

omit laid in
theorem playing_trampoline (hand : Hand) :
    Playing st.schedulers ⟨hand.on p st, .trampoline p.task after, stack⟩ := ⟨List.cons_ne_nil _ _, rfl, rfl⟩

omit laid in
theorem playing_frame (hand : Hand) (program : Program Datum Nat) (above : List (Activation Datum Nat)) :
    Playing st.schedulers ⟨hand.on p st, .code program, above ++ .frame p.task f after :: stack⟩ := by
  refine ⟨fun none => ?_, ?_, rfl⟩
  · have member : (p.task, Stage.inside f) ∈ Agent.runs ⟨.code program, above ++ .frame p.task f after :: stack⟩ := by
      simp [Agent.runs, Activation.run?]
    exact List.not_mem_nil (none ▸ member)
  · have pending : (⟨hand.on p st, .code program, above ++ .frame p.task f after :: stack⟩ : Config Datum Nat).answer? =
        none := by
      unfold Config.answer?
      cases above <;> cases program <;> rfl
    simp only [Pool.status, pending]

omit laid in
/-- The code of a player that is resumed without an error. -/
theorem player_eq (a : ActorId) (shot : Shot) (rounds : Nat) (resumes : CellId) (context : Context) (value : Datum) :
    player a shot rounds resumes context value none =
      .ask (.read resumes) fun n => .ask (.write resumes (n + 1)) fun _ =>
        if n % 2 = 1 then
          if rounds ≤ (n + 1) / 2 then .answer (.done value)
          else .ask (.yield context.task) fun _ => .answer .suspended
        else if rounds = 0 then .answer (.done value)
        else .ask (.newMessage a (.shot shot)) fun delivery => .call context delivery .unit := by
  have branches : ∀ n : Nat, ((if n % 2 = 1 then
      if rounds ≤ (n + 1) / 2 then pure (.done value) else do
        Code.ask (.yield context.task)
        pure .suspended
    else if rounds = 0 then pure (.done value) else do
      let delivery ← Code.ask (.newMessage a (.shot shot))
      Code.call context delivery .unit : Piece (Answer Datum)) .answer) =
        if n % 2 = 1 then
          if rounds ≤ (n + 1) / 2 then .answer (.done value)
          else .ask (.yield context.task) fun _ => .answer .suspended
        else if rounds = 0 then .answer (.done value)
        else .ask (.newMessage a (.shot shot)) fun delivery => .call context delivery .unit := by
    intro n
    split_ifs <;> rfl
  simp only [← branches]
  rfl

/-- The frames of a message that came back. -/
def delivered (p : Shot) (entry guard : FrameId) : Letter :=
  ⟨bodySheet p (some guard) true, guardSheet (some entry) .released⟩

/-- The player makes a message and calls it. -/
theorem makes (base : Task Datum) (k : Nat) (some_rounds : rounds ≠ 0) :
    Config.Rolls (Playing st.schedulers) 7
      ⟨(⟨base, entry, .unit, 2 * k, none, none, rally, false⟩ : Hand).on p st, .trampoline p.task after, stack⟩
      ⟨(⟨base, nextGuard st, .unit, 2 * k + 1,
          some ⟨bodySheet p none false, guardSheet (some entry) (.start (nextBody st))⟩, none, rally, false⟩ : Hand).on p st,
        .trampoline p.task after, stack⟩ := by
  refine .step (playing_trampoline _) (step_player laid _ rfl) ?_
  rw [player_eq]
  refine .step (playing_frame _ _ []) (step_read laid _) ?_
  refine .step (playing_frame _ _ []) (step_write _ _) ?_
  have even : ¬ 2 * k % 2 = 1 := by omega
  simp only [if_neg even, if_neg some_rounds]
  refine .step (playing_frame _ _ []) (step_newMessage laid) ?_
  refine .step (playing_frame _ _ []) (step_attach laid) ?_
  refine .step (playing_frame _ _ []) (step_pause laid _ _) ?_
  refine .step (playing_frame _ _ []) (step_jump laid _ ?_ (entry_ne_guard laid) _) (.refl _)
  simp [Hand.get?_entry laid]

/-- The guard takes the lock, the shot is counted, and the guard is to be resumed with the reply. -/
theorem delivers (base : Task Datum) :
    Config.Rolls (Playing st.schedulers) 7
      ⟨(⟨base, nextGuard st, .unit, resumes,
          some ⟨bodySheet p none false, guardSheet (some entry) (.start (nextBody st))⟩, none, rally, false⟩ : Hand).on p st,
        .trampoline p.task after, stack⟩
      ⟨(⟨base, nextGuard st, .rally (rally.count p), resumes,
          some ⟨bodySheet p (some (nextGuard st)) true, guardSheet (some entry) .held⟩, some p.task, rally.count p, false⟩ :
            Hand).on p st,
        .trampoline p.task after, stack⟩ := by
  refine .step (playing_trampoline _) (step_take laid) ?_
  refine .step (playing_frame _ _ []) (step_jump laid _ ?_ (next_ne st.frames).symm _) ?_
  · simp [Hand.get?_guard]
  refine .step (playing_trampoline _) (step_deliver laid _) ?_
  refine .step (playing_frame _ _ [_]) (step_exclusive laid _) ?_
  refine .step (playing_frame _ _ [_]) (step_setPayload _ _) ?_
  refine .step (playing_frame _ _ [_]) (step_close _ _) ?_
  exact .step (playing_frame _ _ []) (step_return laid _ Hand.get?_body rfl _) (.refl _)

/-- The guard lets the lock go, and the player is to be resumed with the reply. -/
theorem comesBack (base : Task Datum) (body : Sheet) :
    Config.Rolls (Playing st.schedulers) 2
      ⟨(⟨base, nextGuard st, value, resumes, some ⟨body, guardSheet (some entry) .held⟩, some p.task, rally, false⟩ :
          Hand).on p st, .trampoline p.task after, stack⟩
      ⟨(⟨base, entry, value, resumes, some ⟨body, guardSheet (some entry) .released⟩, none, rally, false⟩ : Hand).on p st,
        .trampoline p.task after, stack⟩ := by
  refine .step (playing_trampoline _) (step_letGo laid _) ?_
  exact .step (playing_frame _ _ []) (step_return laid _ Hand.get?_guard rfl _) (.refl _)

/-- The player sends its shot and is to be resumed with the reply. -/
theorem shoots (base : Task Datum) (k : Nat) (some_rounds : rounds ≠ 0) :
    Config.Rolls (Playing st.schedulers) 16
      ⟨(⟨base, entry, .unit, 2 * k, none, none, rally, false⟩ : Hand).on p st, .trampoline p.task after, stack⟩
      ⟨(⟨base, entry, .rally (rally.count p), 2 * k + 1, some (delivered p entry (nextGuard st)), none, rally.count p,
        false⟩ : Hand).on p st, .trampoline p.task after, stack⟩ :=
  ((makes laid base k some_rounds).trans (delivers laid base)).trans (comesBack laid base _)

/-- A task in the middle of a run, in which nothing was arranged yet. -/
structure Fresh (base : Task Datum) : Prop where
  live : base.life = .running
  shared : base.bound = none
  free : base.linked = false
  alone : base.joiners = .empty

/-- The run of a player that has further shots to send. -/
theorem yields (base : Task Datum) (fresh : Fresh base) {k : Nat} (more : k + 1 < rounds) :
    Config.Rolls (Playing st.schedulers) 21
      ⟨(⟨base, entry, .unit, 2 * k, none, none, rally, false⟩ : Hand).on p st, .trampoline p.task after, stack⟩
      ⟨((⟨{ base with worker := none, life := .ready, notified := false, linked := true }, entry, .unit, 2 * (k + 1),
          some (delivered p entry (nextGuard st)), none, rally.count p, false⟩ : Hand).on p st).modifyScheduler
            base.scheduler fun s => { s with ready := s.ready.push p.task }, after, stack⟩ := by
  refine (shoots laid base k (by omega)).trans ?_
  refine .step (playing_trampoline _) (step_player laid _ rfl) ?_
  rw [player_eq]
  refine .step (playing_frame _ _ []) (step_read laid _) ?_
  refine .step (playing_frame _ _ []) (step_write _ _) ?_
  have odd : (2 * k + 1) % 2 = 1 := by omega
  have unfinished : ¬ rounds ≤ (2 * k + 1 + 1) / 2 := by omega
  simp only [if_pos odd, if_neg unfinished]
  refine .step (playing_frame _ _ []) (step_yield laid _ fresh.live) ?_
  exact .step (playing_frame _ _ []) (step_suspend laid _ fresh.live rfl fresh.shared fresh.free) (.refl _)

variable {scheduler : Scheduler}

/-- The run of a player that sends its last shot. -/
theorem finishes (base : Task Datum) (fresh : Fresh base) {k : Nat} (last : k + 1 = rounds)
    (found : st.schedulers.get? base.scheduler = some scheduler) (tasks : 1 ≤ scheduler.tasks)
    (runnable : 1 ≤ scheduler.runnable) :
    Config.Rolls (Playing st.schedulers) 20
      ⟨(⟨base, entry, .unit, 2 * k, none, none, rally, false⟩ : Hand).on p st, .trampoline p.task after, stack⟩
      ⟨(((⟨base, entry, .unit, 2 * (k + 1), some (delivered p entry (nextGuard st)), none, rally.count p, false⟩ :
          Hand).on p st).modifyTask p.task fun _ => ended base (.rally (rally.count p))).modifyScheduler base.scheduler
            fun s => { s with tasks := s.tasks - 1, runnable := s.runnable - 1 }, after, stack⟩ := by
  refine (shoots laid base k (by omega)).trans ?_
  refine .step (playing_trampoline _) (step_player laid _ rfl) ?_
  rw [player_eq]
  refine .step (playing_frame _ _ []) (step_read laid _) ?_
  refine .step (playing_frame _ _ []) (step_write _ _) ?_
  have odd : (2 * k + 1) % 2 = 1 := by omega
  have complete : rounds ≤ (2 * k + 1 + 1) / 2 := by omega
  simp only [if_pos odd, if_pos complete]
  exact .step (playing_frame _ _ []) (step_end laid _ rfl fresh.live fresh.alone found tasks runnable _) (.refl _)

/-- The run of a player that has nothing to send. -/
theorem abstains (base : Task Datum) (fresh : Fresh base) (no_rounds : rounds = 0)
    (found : st.schedulers.get? base.scheduler = some scheduler) (tasks : 1 ≤ scheduler.tasks)
    (runnable : 1 ≤ scheduler.runnable) :
    Config.Rolls (Playing st.schedulers) 4
      ⟨(⟨base, entry, .unit, 0, none, none, rally, false⟩ : Hand).on p st, .trampoline p.task after, stack⟩
      ⟨(((⟨base, entry, .unit, 1, none, none, rally, false⟩ : Hand).on p st).modifyTask p.task
          fun _ => ended base .unit).modifyScheduler base.scheduler
            fun s => { s with tasks := s.tasks - 1, runnable := s.runnable - 1 }, after, stack⟩ := by
  refine .step (playing_trampoline _) (step_player laid _ rfl) ?_
  rw [player_eq]
  refine .step (playing_frame _ _ []) (step_read laid _) ?_
  refine .step (playing_frame _ _ []) (step_write _ _) ?_
  have even : ¬ 0 % 2 = 1 := by omega
  simp only [if_neg even, if_pos no_rounds]
  exact .step (playing_frame _ _ []) (step_end laid _ rfl fresh.live fresh.alone found tasks runnable _) (.refl _)

end

end Scenario.Pingpong

end Tasking
