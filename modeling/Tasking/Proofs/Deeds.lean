import Tasking.Proofs.Crew
import Tasking.Proofs.Sharing

/-! # What any step does

Whatever code a host writes, a step of a thread does one of few things to tasks, resources and
schedulers.  It serves a request, and changes besides only what the books do not speak of
(`State.Deeds`); or it takes up a ready task; or it parks or ends the task whose run it is.
`Config.Course` says which, and what that does to the tasks that the thread runs (`Agent.inHand`).

Which requests code may make is a parameter.
-/

namespace Tasking

variable {V C : Type}

/-- Requests that concern neither tasks nor schedulers nor who owns what. -/
def Request.bookless : Request V C → Bool
  | .spawn _ _ | .spawnBound _ _ | .start _ | .ready _ | .yield _ | .waitExternal _ | .pause _ _
  | .move _ _ | .waitFor _ _ | .tryAcquire _ _ | .acquire _ _ | .release _ _ | .newScheduler _ _
  | .stop _ => false
  | _ => true

theorem Task.SameBooks.trans {task task' task'' : Task V} (first : task.SameBooks task')
    (second : task'.SameBooks task'') : task.SameBooks task'' := by
  unfold SameBooks at *
  rw [second, first]

namespace State

variable {st st' st'' : State V C} {t : TaskId} {task : Task V}

/-! ## Changes that the books do not speak of -/

/-- Nothing changed but frames and payloads, and what tasks stand on. -/
structure Aside (st st' : State V C) : Prop where
  tasks : ∀ t, Option.Rel Task.SameBooks (st.tasks.get? t) (st'.tasks.get? t)
  schedulers : st'.schedulers = st.schedulers
  owner : ∀ r, st'.owner r = st.owner r
  waiters : ∀ r, st'.waiters r = st.waiters r

theorem sameBooks_refl (task : Option (Task V)) : Option.Rel Task.SameBooks task task := by
  cases task with
  | none => exact .none
  | some task => exact .some rfl

theorem sameBooks_trans {x y z : Option (Task V)} (first : Option.Rel Task.SameBooks x y)
    (second : Option.Rel Task.SameBooks y z) : Option.Rel Task.SameBooks x z := by
  cases first with
  | none => exact second
  | some same =>
    cases second with
    | some same' => exact .some (same.trans same')

namespace Aside

@[refl] theorem refl (st : State V C) : Aside st st :=
  ⟨fun _ => sameBooks_refl _, rfl, fun _ => rfl, fun _ => rfl⟩

theorem of_tables (tasks : st'.tasks = st.tasks) (schedulers : st'.schedulers = st.schedulers)
    (owner : ∀ r, st'.owner r = st.owner r) (waiters : ∀ r, st'.waiters r = st.waiters r) :
    Aside st st' :=
  ⟨fun _ => tasks ▸ sameBooks_refl _, schedulers, owner, waiters⟩

theorem modifyFrame (st : State V C) (f : FrameId)
    (change : Frame V (Body V C) → Frame V (Body V C)) : Aside st (st.modifyFrame f change) :=
  .of_tables rfl rfl (fun _ => rfl) fun _ => rfl

theorem modifyExclusive (st : State V C) (x : ExclusiveId) (change : Exclusive V → Exclusive V) :
    Aside st (st.modifyExclusive x change) :=
  .of_tables rfl rfl (fun _ => rfl) fun _ => rfl

theorem modifyTask (st : State V C) (t : TaskId) {f : Task V → Task V}
    (same : ∀ task : Task V, task.SameBooks (f task)) : Aside st (st.modifyTask t f) where
  tasks u := by
    rw [get?_modifyTask]
    split
    · next here =>
      subst here
      cases st.tasks.get? u with
      | none => exact .none
      | some task => exact .some (same task)
    · exact sameBooks_refl _
  schedulers := rfl
  owner _ := rfl
  waiters _ := rfl

theorem setCode (st : State V C) (f : FrameId) (code : Frame.Code V (Body V C)) :
    Aside st (st.setCode f code) := .modifyFrame st f _

theorem trans (first : Aside st st') (second : Aside st' st'') : Aside st st'' where
  tasks t := sameBooks_trans (first.tasks t) (second.tasks t)
  schedulers := second.schedulers.trans first.schedulers
  owner r := (second.owner r).trans (first.owner r)
  waiters r := (second.waiters r).trans (first.waiters r)

theorem of_attach {f : FrameId} {caller : Option FrameId} (done : st.attach f caller = .ok st') :
    Aside st st' := by
  obtain ⟨_, _, rfl⟩ := attach_ok done
  exact .modifyFrame st f _

theorem of_pause {f : FrameId} (done : st.pause t f = .ok st') : Aside st st' := by
  obtain ⟨_, rfl⟩ := pause_ok done
  exact .modifyTask st t fun _ => rfl

theorem of_callFrame {f callee : FrameId} {value : V} {answer : Answer V}
    (done : st.callFrame t f callee value = .ok (answer, st')) : Aside st st' := by
  simp only [State.callFrame, bind_ok, pure_ok, Prod.mk.injEq] at done
  obtain ⟨st₁, attached, st₂, paused, _, rfl⟩ := done
  exact (of_attach attached).trans (of_pause paused)

end Aside

theorem waiters_addResource (name : Option String) (r : ResourceId) :
    (st.addResource name).2.waiters r = st.waiters r := by
  simp only [addResource, waiters, Table.get?_add_eq]
  split
  · next fresh => simp [fresh, Resource.new]
  · rfl

theorem owner_addResource (name : Option String) (r : ResourceId) :
    (st.addResource name).2.owner r = st.owner r := by
  simp only [addResource, owner, Table.get?_add_eq]
  split
  · next fresh => simp [fresh, Resource.new]
  · rfl

/-- What a request does that concerns no books. -/
theorem serve_bookless [Inhabited V] {request : Request V C} {reply : request.Reply}
    (bookless : request.bookless = true) (done : st.serve request = .ok (reply, st')) :
    st'.tasks = st.tasks ∧ st'.schedulers = st.schedulers ∧ (∀ r, st'.owner r = st.owner r) ∧
      ∀ r, st'.waiters r = st.waiters r := by
  have rest : st' = st → st'.tasks = st.tasks ∧ st'.schedulers = st.schedulers ∧
      (∀ r, st'.owner r = st.owner r) ∧ ∀ r, st'.waiters r = st.waiters r := by
    rintro rfl
    exact ⟨rfl, rfl, fun _ => rfl, fun _ => rfl⟩
  cases request with
  | spawn | spawnBound | start | ready | yield | waitExternal | pause | move | waitFor | tryAcquire
    | acquire | release | newScheduler | stop => simp [Request.bookless] at bookless
  | newMessage a message =>
    simp only [serve, addMessage, bind_ok, pure_ok] at done
    obtain ⟨_, _, _, _, _, rfl⟩ := done
    exact ⟨rfl, rfl, fun _ => rfl, fun _ => rfl⟩
  | attach f caller =>
    simp only [serve, bind_ok, pure_ok, Prod.mk.injEq] at done
    obtain ⟨_, attached, _, rfl⟩ := done
    obtain ⟨_, _, rfl⟩ := attach_ok attached
    exact ⟨rfl, rfl, fun _ => rfl, fun _ => rfl⟩
  | newResource name =>
    obtain rfl : _ = st' := congrArg Prod.snd (pure_ok.1 done)
    exact ⟨rfl, rfl, owner_addResource name, waiters_addResource name⟩
  | intern g name =>
    simp only [serve, State.intern, bind_ok] at done
    obtain ⟨registry, _, done⟩ := done
    split at done
    · simp only [pure_ok, Prod.mk.injEq] at done
      exact done.2 ▸ ⟨rfl, rfl, fun _ => rfl, fun _ => rfl⟩
    · simp only [pure_ok, Prod.mk.injEq] at done
      exact rest done.2.symm
  | newGuard | newJoin | newExclusive | setPayload | newRegistry | closeRegistry | newCell | write | update
    | findCycle | thread =>
    obtain rfl : _ = st' := congrArg Prod.snd (pure_ok.1 done)
    exact ⟨rfl, rfl, fun _ => rfl, fun _ => rfl⟩
  | task | frame | resource | exclusive | actorState | lookup | nameOf | findNative | registry | scheduler
    | stats | read =>
    simp only [serve, bind_ok, pure_ok, Prod.mk.injEq] at done
    obtain ⟨_, _, _, rfl⟩ := done
    exact rest rfl

/-! ## Deeds -/

variable {may : State V C → Request V C → Prop}

/-- One thing that happens to tasks, resources and schedulers while code runs. -/
inductive Deed [Inhabited V] (may : State V C → Request V C → Prop) : State V C → State V C → Prop where
  | aside {st st' : State V C} (aside : Aside st st') : Deed may st st'
  | serve {st st' : State V C} {request : Request V C} {reply : request.Reply}
      (permitted : may st request) (served : st.serve request = .ok (reply, st')) : Deed may st st'
  | acquire {st st' : State V C} {r : ResourceId} {t : TaskId} {granted : Except Deadlock Grant}
      (acquired : st.acquire r t = .ok (granted, st')) : Deed may st st'
  | release {st st' : State V C} {r : ResourceId} {t : TaskId}
      (released : st.release r t = .ok st') : Deed may st st'
  | waitFor {st st' : State V C} {t child : TaskId} {reply : Except Deadlock (Option (Outcome V))}
      (waited : st.waitFor t child = .ok (reply, st')) : Deed may st st'

/-- What happens in one step of code: one deed, before and after changes that the books do not speak of. -/
structure Deeds [Inhabited V] (may : State V C → Request V C → Prop) (st st' : State V C) : Prop where
  happens : ∃ st₁ st₂, Aside st st₁ ∧ Deed may st₁ st₂ ∧ Aside st₂ st'

section Deeds

variable [Inhabited V]

theorem Deed.deeds (deed : Deed may st st') : Deeds may st st' := ⟨st, st', .refl st, deed, .refl st'⟩

theorem Aside.deeds (aside : Aside st st') : Deeds may st st' := (Deed.aside aside).deeds

namespace Deeds

@[refl] theorem refl (st : State V C) : Deeds may st st := (Aside.refl st).deeds

theorem before (aside : Aside st st') (deeds : Deeds may st' st'') : Deeds may st st'' := by
  obtain ⟨st₁, st₂, earlier, deed, later⟩ := deeds
  exact ⟨st₁, st₂, aside.trans earlier, deed, later⟩

theorem after (deeds : Deeds may st st') (aside : Aside st' st'') : Deeds may st st'' := by
  obtain ⟨st₁, st₂, earlier, deed, later⟩ := deeds
  exact ⟨st₁, st₂, earlier, deed, later.trans aside⟩

end Deeds

theorem deeds_of_resumeGuard {f : FrameId} {r : ResourceId} {phase : Phase V} {value : V}
    {error : Option (Error V)} {answer : Answer V}
    (done : st.resumeGuard t f r phase value error = .ok (answer, st')) : Deeds may st st' := by
  have recoded : Aside st (st.setCode f (.guard r .released)) := .setCode st f _
  cases phase with
  | start body =>
    simp only [State.resumeGuard] at done
    split at done
    · simp only [pure_ok, Prod.mk.injEq] at done
      exact done.2 ▸ recoded.deeds
    · simp only [bind_ok] at done
      obtain ⟨⟨granted, st₁⟩, acquired, done⟩ := done
      have asked : Deeds may st st₁ := .before recoded (Deed.acquire acquired).deeds
      dsimp only at done
      split at done
      · exact asked.after ((Aside.setCode st₁ f _).trans (.of_callFrame done))
      · simp only [pure_ok, Prod.mk.injEq] at done
        exact done.2 ▸ asked.after (.setCode st₁ f _)
      · simp only [pure_ok, Prod.mk.injEq] at done
        exact done.2 ▸ asked
  | waiting body kept =>
    simp only [State.resumeGuard, check_ok] at done
    obtain ⟨_, _, done⟩ := done
    exact (recoded.trans ((Aside.setCode _ f _).trans (.of_callFrame done))).deeds
  | held =>
    simp only [State.resumeGuard, bind_ok, pure_ok, Prod.mk.injEq] at done
    obtain ⟨st₁, released, _, rfl⟩ := done
    exact .before recoded (Deed.release released).deeds
  | released => simp [State.resumeGuard] at done

theorem deeds_of_resumeJoin {f : FrameId} {child : TaskId} {parked : Bool} {error : Option (Error V)}
    {answer : Answer V} (done : st.resumeJoin t f child parked error = .ok (answer, st')) :
    Deeds may st st' := by
  have rest : st' = st → Deeds may st st' := by
    rintro rfl
    exact .refl st'
  unfold State.resumeJoin at done
  split at done
  · simp only [pure_ok, Prod.mk.injEq] at done
    exact rest done.2.symm
  · split at done
    · simp only [bind_ok, task_ok] at done
      obtain ⟨awaited, _, done⟩ := done
      split at done
      · simp only [pure_ok, Prod.mk.injEq] at done
        exact rest done.2.symm
      · simp at done
    · simp only [bind_ok] at done
      obtain ⟨⟨reply, st₁⟩, waited, done⟩ := done
      have asked : Deeds may st st₁ := (Deed.waitFor waited).deeds
      split at done
      · simp only [pure_ok, Prod.mk.injEq] at done
        exact done.2 ▸ asked
      · simp only [pure_ok, Prod.mk.injEq] at done
        exact done.2 ▸ asked.after (.setCode st₁ f _)
      · simp only [pure_ok, Prod.mk.injEq] at done
        exact done.2 ▸ asked

theorem deeds_of_resumeMessage {f : FrameId} {a : ActorId} {message : V} {delivered : Bool} {value : V}
    {error : Option (Error V)} {resumption : Resumption V C}
    (done : st.resumeMessage t f a message delivered value error = .ok (resumption, st')) :
    Deeds may st st' := by
  have recoded : Aside st (st.setCode f (.message a message true)) := .setCode st f _
  unfold State.resumeMessage at done
  split at done
  · simp only [pure_ok, Prod.mk.injEq] at done
    exact done.2 ▸ .refl st
  · split at done
    · simp only [pure_ok, Prod.mk.injEq] at done
      exact done.2 ▸ recoded.deeds
    · simp only [bind_ok] at done
      obtain ⟨actor, _, may', _, done⟩ := done
      split at done
      · simp only [pure_ok, Prod.mk.injEq] at done
        exact done.2 ▸ (recoded.trans (.modifyExclusive ..)).deeds
      · simp at done

theorem deeds_of_resume {f : FrameId} {value : V} {error : Option (Error V)}
    {resumption : Resumption V C} (done : st.resume t f value error = .ok (resumption, st')) :
    Deeds may st st' := by
  simp only [State.resume, bind_ok, frame_ok] at done
  obtain ⟨frame, _, done⟩ := done
  cases code : frame.code with
  | host body =>
    simp only [code, pure_ok, Prod.mk.injEq] at done
    exact done.2 ▸ .refl st
  | guard r phase =>
    simp only [code, bind_ok, pure_ok, Prod.mk.injEq] at done
    obtain ⟨⟨answer, st₁⟩, resumed, _, rfl⟩ := done
    exact deeds_of_resumeGuard resumed
  | join child parked =>
    simp only [code, bind_ok, pure_ok, Prod.mk.injEq] at done
    obtain ⟨⟨answer, st₁⟩, resumed, _, rfl⟩ := done
    exact deeds_of_resumeJoin resumed
  | message a message delivered =>
    simp only [code] at done
    exact deeds_of_resumeMessage done

end Deeds

end State

/-! ## Tasks in hand -/

/-- The tasks whose runs go on where a thread goes on. -/
def Focus.inHand : Focus V C → List TaskId
  | .trampoline t after => t :: after.inHand
  | _ => []

/-- The tasks whose runs wait for an answer. -/
def Activation.inHand : Activation V C → List TaskId
  | .frame t _ after => t :: after.inHand
  | .cancel _ _ _ _ after => after.inHand
  | _ => []

/-- The tasks whose runs are in progress on a thread. -/
def Agent.inHand (a : Agent V C) : List TaskId :=
  a.focus.inHand ++ a.stack.flatMap Activation.inHand

/-- The scheduler whose oldest ready task a thread takes up next, if there is one. -/
def Focus.takes? : Focus V C → Option SchedulerId
  | .drain s _ _ | .waiting (.quiescent s) _ _ | .work s _ => some s
  | _ => none

/-! ## Steps -/

open State

namespace Config

variable {c config : Config V C} {may : State V C → Request V C → Prop}

/-- What a step of a thread comes to. -/
inductive Course [Inhabited V] (may : State V C → Request V C → Prop) (c config : Config V C) : Prop where
  /-- Code runs, or nothing happens. -/
  | deeds (deeds : Deeds may c.state config.state) (inHand : config.agent.inHand = c.agent.inHand)
  /-- A ready task is taken up. -/
  | begins {t : TaskId} {w : Worker} {st₁ : State V C}
      (taken : (∃ s, c.focus.takes? = some s ∧ c.state.takeReady s = .ok (some t, st₁)) ∨
        (∃ index, c.focus = .own t index) ∧ st₁ = c.state)
      (begun : st₁.beginRun t w = .ok config.state) (inHand : config.agent.inHand = t :: c.agent.inHand)
  /-- The run of a task ends, because its frame suspended. -/
  | parks {t : TaskId} {st₁ : State V C} (aside : Aside c.state st₁) (parked : st₁.park t = .ok config.state)
      (inHand : c.agent.inHand = t :: config.agent.inHand)
  /-- The run of a task ends, because its last frame finished. -/
  | finishes {t : TaskId} {result : Except (Error V) V} {st₁ : State V C} (aside : Aside c.state st₁)
      (finished : st₁.finish t result = .ok config.state)
      (inHand : c.agent.inHand = t :: config.agent.inHand)

variable [Inhabited V] {t : TaskId} {f : FrameId} {after : Focus V C} {stack : List (Activation V C)}
  {st st₁ : State V C} {focus : Focus V C}

theorem deeds_of_resumeFrame (may : State V C → Request V C → Prop) {value : V} {error : Option (Error V)} {activation : Activation V C}
    (done : (⟨st, focus, stack⟩ : Config V C).resumeFrame t f value error activation = .ok config) :
    Deeds may st config.state ∧
      config.agent.inHand = activation.inHand ++ stack.flatMap Activation.inHand := by
  simp only [resumeFrame, bind_ok] at done
  obtain ⟨⟨resumption, st'⟩, resumed, done⟩ := done
  cases opened : resumption.opened with
  | none =>
    simp only [opened, pure_ok] at done
    subst done
    exact ⟨deeds_of_resume resumed, rfl⟩
  | some x =>
    simp only [opened, pure_ok] at done
    subst done
    exact ⟨deeds_of_resume resumed, rfl⟩

theorem deeds_of_cancelNext (may : State V C → Request V C → Prop) {doomed : List FrameId} {target : FrameId} {value : V}
    (done : (⟨st, focus, stack⟩ : Config V C).cancelNext t doomed target value after = .ok config) :
    Deeds may st config.state ∧
      config.agent.inHand = after.inHand ++ stack.flatMap Activation.inHand := by
  cases doomed with
  | nil =>
    obtain rfl := pure_ok.1 done
    have landed : Aside st (landAt st t target value) := .modifyTask st t fun _ => rfl
    exact ⟨landed.deeds, rfl⟩
  | cons f rest =>
    exact deeds_of_resumeFrame may
      (show (⟨st, focus, stack⟩ : Config V C).resumeFrame t f default (some .cancelled)
        (.cancel t rest target value after) = .ok config from done)

theorem deeds_of_unwind (may : State V C → Request V C → Prop) {target : FrameId} {value : V}
    (done : (⟨st, focus, stack⟩ : Config V C).unwind t target value after = .ok config) :
    Deeds may st config.state ∧
      config.agent.inHand = after.inHand ++ stack.flatMap Activation.inHand := by
  simp only [unwind, bind_ok, check_ok] at done
  obtain ⟨task, _, _, done⟩ := done
  split at done
  · exact deeds_of_cancelNext may done
  · simp at done

theorem course_of_runReady {s : SchedulerId} {w : Worker} {otherwise : Focus V C} (takes : focus.takes? = some s)
    (idle : focus.inHand = []) (empty : after.inHand = []) (empty' : otherwise.inHand = [])
    (done : (⟨st, focus, stack⟩ : Config V C).runReady s w after otherwise = .ok config) :
    Course may ⟨st, focus, stack⟩ config := by
  simp only [runReady, bind_ok] at done
  obtain ⟨⟨next, st₁⟩, taken, done⟩ := done
  cases next with
  | none =>
    obtain rfl := pure_ok.1 done
    rcases takeReady_ok taken with ⟨_, rfl⟩ | ⟨_, _, impossible, _⟩
    · refine .deeds (.refl _) ?_
      simp [agent, goTo, Agent.inHand, idle, empty']
    · simp at impossible
  | some t =>
    simp only [beginRun, tryState, bind_ok, pure_ok] at done
    obtain ⟨_, ⟨st₂, begun, rfl⟩, rfl⟩ := done
    refine .begins (.inl ⟨s, takes, taken⟩) begun ?_
    simp [agent, goTo, Agent.inHand, Focus.inHand, idle, empty]

/-- Dealing with the answer of a frame that a run resumed. -/
theorem course_of_takeAnswer {a : Answer V}
    (done : (⟨st, .code (.answer a), stack⟩ : Config V C).takeAnswer t f a after = .ok config) :
    Course may ⟨st, .code (.answer a), .frame t f after :: stack⟩ config := by
  have finishes : ∀ {result}, (⟨st, .code (.answer a), stack⟩ : Config V C).finishFrame t f result after =
      .ok config → Course may ⟨st, .code (.answer a), .frame t f after :: stack⟩ config := by
    intro result done
    simp only [finishFrame, bind_ok, task_ok, check_ok, frame_ok] at done
    obtain ⟨task, _, _, frame, _, done⟩ := done
    cases caller : frame.caller with
    | none =>
      simp only [caller, finishRun, tryState, mapState, bind_ok, pure_ok] at done
      obtain ⟨_, ⟨st₁, finished, rfl⟩, rfl⟩ := done
      refine .finishes ((Aside.modifyTask st t ?_).trans (.modifyTask _ t ?_)) finished rfl
      · exact fun _ => rfl
      · exact fun _ => rfl
    | some caller =>
      simp only [caller] at done
      obtain rfl := pure_ok.1 done
      refine .deeds (Aside.modifyTask st t fun task => ?_).deeds rfl
      cases result <;> rfl
  cases a with
  | done value => exact finishes done
  | throw error => exact finishes done
  | suspended =>
    simp only [takeAnswer, suspendRun, tryState, bind_ok, pure_ok] at done
    obtain ⟨_, ⟨st₁, parked, rfl⟩, rfl⟩ := done
    have left : Aside st (st.endRun t) := .modifyTask st t fun _ => rfl
    exact .parks left parked rfl
  | jump target value =>
    simp only [takeAnswer, jump, bind_ok, task_ok, frame_ok] at done
    obtain ⟨task, _, frame, _, done⟩ := done
    generalize (if task.top = some f ∧ f ≠ target then frame.caller else task.top) = top at done
    have moved : Aside st (st.modifyTask t fun task => { task with top := top }) :=
      .modifyTask st t fun _ => rfl
    have landed : Aside _ (landAt (st.modifyTask t fun task => { task with top := top }) t target value) :=
      .modifyTask _ t fun _ => rfl
    split at done
    · obtain rfl := pure_ok.1 done
      exact .deeds (moved.trans landed).deeds rfl
    · obtain ⟨deeds, inHand⟩ := deeds_of_unwind may done
      exact .deeds (.before moved deeds) inHand

theorem course_of_deliver {a : Answer V}
    (done : (⟨st, .code (.answer a), stack⟩ : Config V C).deliver a = .ok config) :
    Course may ⟨st, .code (.answer a), stack⟩ config := by
  cases stack with
  | nil =>
    obtain rfl := pure_ok.1 done
    exact .deeds (.refl _) rfl
  | cons x rest =>
    cases x with
    | frame t f after => exact course_of_takeAnswer done
    | cancel t doomed target value after =>
      obtain ⟨deeds, inHand⟩ := deeds_of_cancelNext may done
      exact .deeds deeds inHand
    | call next =>
      obtain rfl := pure_ok.1 done
      exact .deeds (.refl _) rfl
    | opened x =>
      obtain rfl := pure_ok.1 done
      exact .deeds (Aside.modifyExclusive st x _).deeds rfl

theorem course_of_stepCode {p : Program V C} (permitted : ∀ request next, p = .ask request next → may st request)
    (done : (⟨st, .code p, stack⟩ : Config V C).stepCode p = .ok config) :
    Course may ⟨st, .code p, stack⟩ config := by
  cases p with
  | answer a => exact course_of_deliver done
  | ask request next =>
    simp only [stepCode, bind_ok, pure_ok] at done
    obtain ⟨⟨reply, st₁⟩, served, rfl⟩ := done
    exact .deeds (Deed.serve (permitted request next rfl) served).deeds rfl
  | newFrame label body next =>
    simp only [stepCode, pure_ok] at done
    subst done
    have aside : Aside st (st.addFrame ⟨label, none, .host body⟩).2 :=
      .of_tables rfl rfl (fun _ => rfl) fun _ => rfl
    exact .deeds aside.deeds rfl
  | newActor first handler next =>
    simp only [stepCode, pure_ok] at done
    subst done
    have aside : Aside st (st.addActor first handler).2 :=
      .of_tables rfl rfl (owner_addResource none) (waiters_addResource none)
    exact .deeds aside.deeds rfl
  | register g name native next =>
    simp only [stepCode, State.register, bind_ok, pure_ok] at done
    obtain ⟨⟨reply, st₁⟩, ⟨registry, _, registered⟩, rfl⟩ := done
    simp only [Prod.mk.injEq] at registered
    obtain ⟨_, rfl⟩ := registered
    have aside : Aside st (st.modifyRegistry g fun _ => (registry.register name native).2) :=
      .of_tables rfl rfl (fun _ => rfl) fun _ => rfl
    exact .deeds aside.deeds rfl
  | callNative g name context arguments next =>
    simp only [stepCode, bind_ok] at done
    obtain ⟨registry, _, done⟩ := done
    split at done
    · obtain rfl := pure_ok.1 done
      exact .deeds (.refl _) rfl
    · obtain rfl := pure_ok.1 done
      exact .deeds (.refl _) rfl
  | unwind t target value next =>
    obtain ⟨deeds, inHand⟩ := deeds_of_unwind may done
    exact .deeds deeds inHand
  | drive s next =>
    obtain rfl := pure_ok.1 done
    exact .deeds (.refl _) rfl
  | within x t inside next =>
    simp only [stepCode, bind_ok] at done
    obtain ⟨opens, _, done⟩ := done
    split at done
    · obtain rfl := pure_ok.1 done
      exact .deeds (Aside.modifyExclusive st x _).deeds rfl
    · obtain rfl := pure_ok.1 done
      exact .deeds (.refl _) rfl
  | await condition limit next =>
    obtain rfl := pure_ok.1 done
    exact .deeds (.refl _) rfl

omit [Inhabited V] in
theorem takes?_of_driven {s : SchedulerId} {condition : Until} {limit : Option Nat} {next : Program V C}
    (driven : driven? st condition = some s) :
    (Focus.waiting condition limit next).takes? = some s := by
  cases condition with
  | quiescent home =>
    simp only [driven?, Option.ite_none_right_eq_some, Option.some.injEq] at driven
    exact congrArg some driven.2
  | outcome | stage => cases driven

/-- A thread that drove a scheduler goes on with code when nothing is left in the queue. -/
theorem empty_of_drain {s : SchedulerId} {n : Nat} {next : Nat → Program V C} {p : Program V C}
    (returns : (⟨st, .drain s n next, stack⟩ : Config V C).step = .ok ⟨st₁, .code p, stack⟩) :
    st₁ = st ∧ st.queue s = [] := by
  simp only [Config.step, Config.runReady, bind_ok] at returns
  obtain ⟨⟨taken, st₂⟩, takes, returns⟩ := returns
  cases taken with
  | some t =>
    simp only [Config.beginRun, Config.tryState, bind_ok, pure_ok] at returns
    obtain ⟨c, _, goes⟩ := returns
    cases congrArg Config.focus goes
  | none =>
    obtain rfl : st₂ = st₁ := congrArg Config.state (pure_ok.1 returns)
    simp only [State.takeReady, bind_ok, State.scheduler_ok] at takes
    obtain ⟨scheduler, known, takes⟩ := takes
    split at takes
    · next empty =>
      obtain rfl : st = st₂ := congrArg Prod.snd (pure_ok.1 takes)
      exact ⟨rfl, by simpa [State.queue, known] using (Line.pop?_eq_none_iff _).1 empty⟩
    · cases congrArg Prod.fst (pure_ok.1 takes)

/-- Every step that code can make whose requests are permitted. -/
theorem course_of_step (permitted : ∀ request next, c.focus = .code (.ask request next) → may c.state request)
    (step : c.step = .ok config) : Course may c config := by
  obtain ⟨st, focus, stack⟩ := c
  cases focus with
  | code p =>
    exact course_of_stepCode (fun request next same => permitted request next (congrArg _ same)) step
  | trampoline t after =>
    simp only [Config.step, resumeTop, bind_ok, task_ok] at step
    obtain ⟨task, _, step⟩ := step
    cases top : task.top with
    | none => simp [top] at step
    | some f =>
      simp only [top] at step
      obtain ⟨deeds, inHand⟩ := deeds_of_resumeFrame may step
      refine .deeds (.before (.modifyTask st t ?_) deeds) inHand
      exact fun _ => rfl
  | drain s runs next => exact course_of_runReady rfl rfl rfl rfl step
  | waiting condition limit next =>
    simp only [Config.step, keepWaiting] at step
    split at step
    · obtain rfl := pure_ok.1 step
      exact .deeds (.refl _) rfl
    · split at step
      · next s driven => exact course_of_runReady (takes?_of_driven driven) rfl rfl rfl step
      · obtain rfl := pure_ok.1 step
        exact .deeds (.refl _) rfl
  | work s index => exact course_of_runReady rfl rfl rfl rfl step
  | own t index =>
    simp only [Config.step, beginRun, tryState, bind_ok, pure_ok] at step
    obtain ⟨_, ⟨st₂, begun, rfl⟩, rfl⟩ := step
    exact .begins (.inr ⟨⟨index, rfl⟩, rfl⟩) begun rfl
  | rest =>
    obtain rfl := pure_ok.1 step
    exact .deeds (.refl _) rfl

end Config

end Tasking
