import Tasking.Proofs.Parked.Homes
import Tasking.Proofs.Unshared

/-! # What the top frame of a task is resumed with

A step changes the value or the error that a task has for its top frame only as it goes on with the run of that
task: as it resumes the frame, as it hands over what a frame finished or jumped with and goes on with the run at
once, or as code unwinds the task by hand (`Config.Feeds`).
-/

namespace Tasking

variable {V C : Type}

/-- What the top frame of a task is resumed with next. -/
def Task.inputs (task : Task V) : V × Option (Error V) := (task.value, task.error)

namespace State

variable {st st' st'' : State V C} {t : TaskId} {f : FrameId} {task task' : Task V} {kept : TaskId → Prop}

/-- What certain tasks have for their top frames is as it was. -/
structure Retains (kept : TaskId → Prop) (st st' : State V C) : Prop where
  task : ∀ {u task}, st.tasks.get? u = some task → ∃ task', st'.tasks.get? u = some task' ∧
    (kept u → task'.inputs = task.inputs)

namespace Retains

@[refl] theorem refl (st : State V C) : Retains kept st st := ⟨fun found => ⟨_, found, fun _ => rfl⟩⟩

theorem trans (first : Retains kept st st') (second : Retains kept st' st'') : Retains kept st st'' := by
  refine ⟨fun found => ?_⟩
  obtain ⟨task', found', same⟩ := first.task found
  obtain ⟨task'', found'', same'⟩ := second.task found'
  exact ⟨task'', found'', fun keeps => (same' keeps).trans (same keeps)⟩

theorem mono {kept' : TaskId → Prop} (retains : Retains kept st st') (fewer : ∀ u, kept' u → kept u) :
    Retains kept' st st' := by
  refine ⟨fun found => ?_⟩
  obtain ⟨task', found', same⟩ := retains.task found
  exact ⟨task', found', fun keeps => same (fewer _ keeps)⟩

theorem of_steady (steady : Steady st st') : Retains kept st st' := by
  refine ⟨fun {u task} found => ?_⟩
  have stays := steady u
  rw [found] at stays
  cases found' : st'.tasks.get? u with
  | none => rw [found'] at stays; cases stays
  | some task' =>
    rw [found'] at stays
    cases stays with
    | some stays => exact ⟨task', rfl, fun _ => congrArg Prod.snd stays.register⟩

theorem of_tasks (same : st'.tasks = st.tasks) : Retains kept st st' := .of_steady (.of_tasks same)

theorem of_becomes (found : st.tasks.get? t = some task) (becomes : Becomes st t task' st')
    (inputs : kept t → task'.inputs = task.inputs) : Retains kept st st' := by
  refine ⟨fun {u other} found' => ?_⟩
  by_cases same : u = t
  · subst same
    obtain rfl := Option.some.inj (found.symm.trans found')
    exact ⟨task', becomes.self, inputs⟩
  · exact ⟨other, (becomes.other same).trans found', fun _ => rfl⟩

theorem of_new {new : Task V}
    (tasks : ∀ u, st'.tasks.get? u = if u = st.tasks.next then some new else st.tasks.get? u) :
    Retains kept st st' :=
  ⟨fun found => ⟨_, (tasks _).trans ((if_neg (Table.ne_next_of_get? found)).trans found), fun _ => rfl⟩⟩

end Retains

theorem retains_pause (done : st.pause t f = .ok st') : Retains kept st st' := by
  obtain ⟨there, rfl⟩ := pause_ok done
  obtain ⟨task, found⟩ := Option.isSome_iff_exists.1 there
  exact .of_becomes found (becomes_modifyTask found _) fun _ => rfl

theorem retains_landAt (target : FrameId) (value : V) : Retains (· ≠ t) st (Config.landAt st t target value) := by
  refine ⟨fun {u task} found => ?_⟩
  by_cases same : u = t
  · subst same
    exact ⟨_, (becomes_modifyTask found _).self, fun other => absurd rfl other⟩
  · exact ⟨task, by rwa [Config.landAt, get?_modifyTask, if_neg same], fun _ => rfl⟩

theorem retains_callFrame {callee : FrameId} {value : V} {answer : Answer V}
    (done : st.callFrame t f callee value = .ok (answer, st')) : Retains kept st st' := by
  simp only [callFrame, bind_ok, pure_ok, Prod.mk.injEq] at done
  obtain ⟨st₁, attached, st₂, paused, _, rfl⟩ := done
  obtain ⟨_, _, rfl⟩ := attach_ok attached
  have attaches : Retains kept st (st.modifyFrame callee fun frame => { frame with caller := some f }) := .of_tasks rfl
  exact attaches.trans (retains_pause paused)

theorem retains_setCode (st : State V C) (f : FrameId) (code : Frame.Code V (Body V C)) :
    Retains kept st (st.setCode f code) := .of_tasks rfl

theorem retains_resumeGuard {r : ResourceId} {phase : Phase V} {value : V} {error : Option (Error V)}
    {answer : Answer V} (done : st.resumeGuard t f r phase value error = .ok (answer, st')) : Retains kept st st' := by
  cases phase with
  | start body =>
    simp only [State.resumeGuard] at done
    split at done
    · simp only [pure_ok, Prod.mk.injEq] at done
      exact done.2 ▸ retains_setCode st f _
    · simp only [bind_ok] at done
      obtain ⟨⟨granted, st₁⟩, acquired, done⟩ := done
      have asked : Retains kept st st₁ :=
        (retains_setCode st f (.guard r .released)).trans (.of_steady (steady_acquire acquired))
      dsimp only at done
      split at done
      · exact (asked.trans (retains_setCode st₁ f (.guard r .held))).trans (retains_callFrame done)
      · simp only [pure_ok, Prod.mk.injEq] at done
        exact done.2 ▸ asked.trans (retains_setCode st₁ f _)
      · simp only [pure_ok, Prod.mk.injEq] at done
        exact done.2 ▸ asked
  | waiting body kept =>
    simp only [State.resumeGuard, check_ok] at done
    obtain ⟨_, _, done⟩ := done
    exact ((retains_setCode st f (.guard r .released)).trans (retains_setCode _ f (.guard r .held))).trans
      (retains_callFrame done)
  | held =>
    simp only [State.resumeGuard, bind_ok, pure_ok, Prod.mk.injEq] at done
    obtain ⟨st₁, gives, _, rfl⟩ := done
    exact (retains_setCode st f (.guard r .released)).trans (.of_steady (steady_release gives))
  | released => simp [State.resumeGuard] at done

theorem retains_resumeJoin {child : TaskId} {parked : Bool} {error : Option (Error V)} {answer : Answer V}
    (done : st.resumeJoin t f child parked error = .ok (answer, st')) : Retains kept st st' := by
  unfold State.resumeJoin at done
  split at done
  · simp only [pure_ok, Prod.mk.injEq] at done
    exact done.2 ▸ .refl st
  · split at done
    · simp only [bind_ok] at done
      obtain ⟨awaited, _, done⟩ := done
      split at done
      · simp only [pure_ok, Prod.mk.injEq] at done
        exact done.2 ▸ .refl st
      · simp at done
    · simp only [bind_ok] at done
      obtain ⟨⟨reply, st₁⟩, waited, done⟩ := done
      have asked : Retains kept st st₁ := .of_steady (steady_waitFor waited)
      split at done
      · simp only [pure_ok, Prod.mk.injEq] at done
        exact done.2 ▸ asked
      · simp only [pure_ok, Prod.mk.injEq] at done
        exact done.2 ▸ asked.trans (retains_setCode st₁ f _)
      · simp only [pure_ok, Prod.mk.injEq] at done
        exact done.2 ▸ asked

/-- Resuming a frame leaves what tasks have for their top frames. -/
theorem retains_resume {value : V} {error : Option (Error V)} {resumption : Resumption V C}
    (done : st.resume t f value error = .ok (resumption, st')) : Retains kept st st' := by
  simp only [State.resume, bind_ok, frame_ok] at done
  obtain ⟨frame, found, done⟩ := done
  split at done
  · simp only [pure_ok, Prod.mk.injEq] at done
    exact done.2 ▸ .refl st
  · simp only [bind_ok, pure_ok, Prod.mk.injEq] at done
    obtain ⟨⟨answer, st₁⟩, resumed, _, rfl⟩ := done
    exact retains_resumeGuard resumed
  · simp only [bind_ok, pure_ok, Prod.mk.injEq] at done
    obtain ⟨⟨answer, st₁⟩, resumed, _, rfl⟩ := done
    exact retains_resumeJoin resumed
  · next a message delivered same =>
    unfold State.resumeMessage at done
    split at done
    · simp only [pure_ok, Prod.mk.injEq] at done
      exact done.2 ▸ .refl st
    · split at done
      · simp only [pure_ok, Prod.mk.injEq] at done
        exact done.2 ▸ .of_tasks rfl
      · simp only [bind_ok] at done
        obtain ⟨actor, _, may, _, done⟩ := done
        split at done
        · simp only [pure_ok, Prod.mk.injEq] at done
          exact done.2 ▸ .of_tasks rfl
        · simp at done

variable [Inhabited V]

theorem retains_serve {request : Request V C} {reply : request.Reply} (unforced : st.Unmoving request)
    (done : st.serve request = .ok (reply, st')) : Retains kept st st' := by
  cases request with
  | move t target => exact absurd rfl (unforced t target)
  | spawn s entry =>
    simp only [serve, State.spawn, bind_ok] at done
    obtain ⟨scheduler, _, done⟩ := done
    split at done
    · obtain rfl : st = st' := congrArg Prod.snd (pure_ok.1 done)
      rfl
    · obtain rfl : _ = st' := congrArg Prod.snd (pure_ok.1 done)
      exact .of_new (get?_spawned s entry none)
  | spawnBound s entry =>
    simp only [serve, State.spawnBound, bind_ok] at done
    obtain ⟨scheduler, _, done⟩ := done
    split at done
    · obtain rfl : st = st' := congrArg Prod.snd (pure_ok.1 done)
      rfl
    · split at done
      · obtain rfl : _ = st' := congrArg Prod.snd (pure_ok.1 done)
        exact .of_new fun u => st.tasks.get?_add_eq _ u
      · simp at done
      · simp only [bind_ok, startBound] at done
        obtain ⟨st₁, started, done⟩ := done
        obtain rfl : st₁ = st' := congrArg Prod.snd (pure_ok.1 done)
        refine .trans ?_ (.of_steady (steady_start started))
        exact .of_new (get?_spawned s entry (some scheduler.nextThread))
  | pause t f =>
    simp only [serve, bind_ok, pure_ok, Prod.mk.injEq] at done
    obtain ⟨_, paused, _, rfl⟩ := done
    exact retains_pause paused
  | _ => exact .of_steady (steady_serve trivial done)

end State

namespace Activation

/-- Code that unwound a task by hand waits until the frames in between are cancelled. -/
def ByHand (t : TaskId) : Activation V C → Prop
  | .cancel u _ _ _ after => u = t ∧ ∃ next, after = .code next
  | _ => False

variable {t : TaskId}

theorem ByHand.inHand {stack : List (Activation V C)} {x : Activation V C} (anchored : Anchored stack)
    (member : x ∈ stack) (byHand : x.ByHand t) : t ∈ stack.flatMap Activation.inHand := by
  induction stack with
  | nil => cases member
  | cons y stack inductionHypothesis =>
    rcases List.mem_cons.1 member with rfl | member
    · cases x with
      | cancel u doomed target value after =>
        obtain ⟨rfl, _⟩ := byHand
        exact inHand_of_runner anchored rfl
      | _ => exact byHand.elim
    · rw [List.flatMap_cons, List.mem_append]
      refine .inr (inductionHypothesis ?_ member)
      cases y with
      | cancel => exact anchored.2
      | frame => exact anchored
      | call => exact anchored
      | opened => exact anchored

theorem not_byHand_of_idle {extra : List (Activation V C)} (idle : ∀ x ∈ extra, x.run? = none) :
    ∀ x ∈ extra, ¬ x.ByHand t := by
  intro x member
  have idle := idle x member
  cases x with
  | cancel => cases idle
  | _ => exact id

end Activation

namespace Config

open State

variable {st : State V C} {t : TaskId} {focus : Focus V C} {stack : List (Activation V C)}

/-- Code that unwound a task by hand waits only if such code waited before. -/
def Hurries (u : TaskId) (c config : Config V C) : Prop :=
  (∃ x ∈ config.stack, x.ByHand u) → ∃ x ∈ c.stack, x.ByHand u

theorem hurries_append {c : Config V C} {u : TaskId} {st' : State V C} {focus' : Focus V C}
    {below : List (Activation V C)} (extra : List (Activation V C)) (suffix : below <:+ c.stack)
    (apart : ∀ x ∈ extra, ¬ x.ByHand u) : Hurries u c ⟨st', focus', extra ++ below⟩ := by
  rintro ⟨x, member, byHand⟩
  rcases List.mem_append.1 member with new | old
  · exact absurd byHand (apart x new)
  · exact ⟨x, suffix.subset old, byHand⟩

theorem hurries_resumed {c : Config V C} {u : TaskId} {st' : State V C} {focus' : Focus V C}
    {below : List (Activation V C)} {x : Activation V C} (opened : Option ExclusiveId) (suffix : below <:+ c.stack)
    (apart : ¬ x.ByHand u) : Hurries u c ⟨st', focus', (opened.map .opened).toList ++ x :: below⟩ := by
  rw [List.append_cons]
  refine hurries_append _ suffix fun y member => ?_
  rcases List.mem_append.1 member with new | new
  · exact Activation.not_byHand_of_idle (Activation.run?_opened opened) y new
  · obtain rfl := List.mem_singleton.1 new
    exact apart

/-- What a step does to the values and errors that tasks have for their top frames. -/
inductive Feeds [Inhabited V] (c config : Config V C) : Prop where
  | same (settled : c.focus.run? = none) (retains : Retains (fun _ => True) c.state config.state)
      (hurries : ∀ u, Hurries u c config)
  /-- The top frame of a task is resumed. -/
  | takes {t : TaskId} {after : Focus V C} (focus : c.focus = .trampoline t after)
      (retains : Retains (· ≠ t) c.state config.state)
      (cleared : ∀ {task}, config.state.tasks.get? t = some task → task.inputs = (default, none))
      (hurries : ∀ u, Hurries u c config)
  /-- The run of a task goes on at once with what a frame handed over. -/
  | turns {t : TaskId} {after : Focus V C} (settled : c.focus.run? = none)
      (focus : config.focus = .trampoline t after) (retains : Retains (· ≠ t) c.state config.state)
      (hurries : ∀ u, Hurries u c config)
  /-- Code unwinds a task by hand. -/
  | unwinds {t : TaskId} (settled : c.focus.run? = none)
      (byHand : (∃ target value next, c.focus = .code (.unwind t target value next)) ∨ ∃ x ∈ c.stack, x.ByHand t)
      (retains : Retains (· ≠ t) c.state config.state)
      (error : ∀ {task task'}, c.state.tasks.get? t = some task → config.state.tasks.get? t = some task' →
        task'.error = task.error ∨ task'.error = none)
      (hurries : ∀ u ≠ t, Hurries u c config)
  /-- A task ends. -/
  | ends {t : TaskId} (settled : c.focus.run? = none) (retains : Retains (· ≠ t) c.state config.state)
      (inHand : c.agent.inHand = t :: config.agent.inHand) (hurries : ∀ u, Hurries u c config)

variable [Inhabited V] {c config : Config V C}

/-- What a step does that does not unwind by hand. -/
theorem feeds_of_does (anchored : Activation.Anchored c.stack)
    (unforced : ∀ request next, c.focus = .code (.ask request next) → c.state.Unmoving request)
    (does : Does c config) : c.Feeds config := by
  cases does with
  | serves served => exact .same rfl (retains_serve (unforced _ _ rfl) served) fun _ => id
  | newFrame => exact .same rfl (.of_tasks rfl) fun _ => id
  | newActor => exact .same rfl (.of_tasks rfl) fun _ => id
  | registers => exact .same rfl (.of_tasks rfl) fun _ => id
  | passes detours idle calls =>
    refine .same detours.1 (.refl _) fun u => hurries_append _ List.suffix_rfl fun x member => ?_
    have call := calls x member
    cases x with
    | call => exact id
    | _ => exact call.elim
  | rests => exact .same rfl (.refl _) fun _ => id
  | hands => exact .same rfl (.refl _) fun u => hurries_append [] (List.suffix_cons _ _) nofun
  | @opens st x t inside next stack may =>
    exact .same rfl (.of_tasks rfl) fun u => hurries_append [.opened x, .call fun answer => next (some answer)]
      List.suffix_rfl (by simp [Activation.ByHand])
  | closes => exact .same rfl (.of_tasks rfl) fun u => hurries_append [] (List.suffix_cons _ _) nofun
  | begins detours busy settled taken begun =>
    refine .same detours.1 (.of_steady ?_) fun _ => id
    obtain ⟨s, taken⟩ | ⟨_, rfl⟩ := taken
    · exact (steady_takeReady taken).trans (steady_beginRun begun)
    · exact steady_beginRun begun
  | @resumes st st' t f task after resumption stack found top resumed =>
    have cleared := becomes_modifyTask found fun task => { task with value := default, error := none }
    refine .takes rfl (.trans (.of_becomes found cleared fun other => absurd rfl other) (retains_resume resumed))
      (fun {task'} found' => ?_) fun u => hurries_resumed _ List.suffix_rfl id
    have kept : Retains (fun _ => True) _ st' := retains_resume resumed
    obtain ⟨task'', found'', same⟩ := kept.task cleared.self
    obtain rfl := Option.some.inj (found''.symm.trans found')
    exact same trivial
  | suspends parked =>
    exact .same rfl (.of_steady ((steady_endRun _ _).trans (steady_park parked))) fun u =>
      hurries_append [] (List.suffix_cons _ _) nofun
  | returns ends found top link =>
    exact .turns rfl rfl (.of_becomes found (becomes_modifyTask found _) fun other => absurd rfl other) fun u =>
      hurries_append [] (List.suffix_cons _ _) nofun
  | @finishes st st' t f answer result task after stack ends found top link finished =>
    have left := becomes_modifyTask found fun task => { task with top := none }
    have ended := left.trans (becomes_modifyTask left.self fun task => { task with worker := none })
    obtain ⟨_, st₁, woken, retired⟩ := finish_ok ended.self finished
    have closed : Retains (· ≠ t) st
        (((st.modifyTask t fun task => { task with top := none }).endRun t).closed t result) :=
      .of_becomes found (ended.trans (becomes_closed ended.self)) fun other => absurd rfl other
    exact .ends rfl (closed.trans (.of_steady ((steady_readyAll woken).trans (steady_retire retired)))) rfl fun u =>
      hurries_append [] (List.suffix_cons _ _) nofun
  | @lands st t f target value task after stack found top =>
    have moved : Retains (· ≠ t) st (st.modifyTask t fun task => { task with top := some target }) :=
      .of_becomes found (becomes_modifyTask found _) fun other => absurd rfl other
    exact .turns rfl rfl (moved.trans (retains_landAt target value)) fun u =>
      hurries_append [] (List.suffix_cons _ _) nofun
  | @leaps st st' t f g target value task rest after resumption stack found top path resumed =>
    have moved : Retains (fun _ => True) st (st.modifyTask t fun task => { task with top := some g }) :=
      .of_becomes found (becomes_modifyTask found _) fun _ => rfl
    exact .same rfl (moved.trans (retains_resume resumed)) fun u =>
      hurries_resumed _ (List.suffix_cons _ _) (by simp [Activation.ByHand])
  | @cancels st st' t g target answer value rest after resumption stack resumed =>
    refine .same rfl (retains_resume resumed) fun u => ?_
    by_cases byHand : (Activation.cancel t rest target value after : Activation V C).ByHand u
    · exact fun _ => ⟨_, List.mem_cons_self, byHand⟩
    · exact hurries_resumed _ (List.suffix_cons _ _) byHand
  | @unwinds st t target answer value after stack =>
    have hurries (u : TaskId) : Hurries u ⟨st, .code (.answer answer), .cancel t [] target value after :: stack⟩
        ⟨landAt st t target value, after, stack⟩ := hurries_append [] (List.suffix_cons _ _) nofun
    obtain ⟨⟨onwards, rfl⟩ | ⟨⟨next, rfl⟩, _⟩, _⟩ := anchored
    · exact .turns rfl rfl (retains_landAt target value) hurries
    · refine .unwinds rfl (.inr ⟨_, List.mem_cons_self, rfl, next, rfl⟩) (retains_landAt target value)
        (fun {task task'} found found' => .inr ?_) fun u _ => hurries u
      obtain rfl := Option.some.inj ((becomes_modifyTask found _).self.symm.trans found')
      rfl

/-- Code unwinds the task that it runs for. -/
theorem feeds_of_unwind {target : FrameId} {value : V} {next : Program V C}
    (step : (⟨st, .code (.unwind t target value next), stack⟩ : Config V C).step = .ok config) :
    Feeds ⟨st, .code (.unwind t target value next), stack⟩ config := by
  simp only [Config.step, stepCode, unwind, bind_ok, task_ok, check_ok] at step
  obtain ⟨task, found, _, step⟩ := step
  split at step
  · next doomed walk =>
    cases doomed with
    | nil =>
      obtain rfl := pure_ok.1 step
      refine .unwinds rfl (.inl ⟨target, value, next, rfl⟩) (retains_landAt target value)
        (fun {task task'} found found' => .inr ?_) fun u _ => id
      obtain rfl := Option.some.inj ((becomes_modifyTask found _).self.symm.trans found')
      rfl
    | cons g rest =>
      obtain ⟨resumption, st', resumed, rfl⟩ := Crew.Sound.resumeFrame_ok
        (show (⟨st, .code (.unwind t target value next), stack⟩ : Config V C).resumeFrame t g default
          (some .cancelled) (.cancel t rest target value (.code next)) = .ok config from step)
      have kept : Retains (fun _ => True) st st' := retains_resume resumed
      refine .unwinds rfl (.inl ⟨target, value, next, rfl⟩) (kept.mono fun _ _ => trivial)
        (fun {task task'} found found' => .inl ?_) fun u other => ?_
      · obtain ⟨task'', found'', same⟩ := kept.task found
        obtain rfl := Option.some.inj (found''.symm.trans found')
        exact congrArg Prod.snd (same trivial)
      · exact hurries_resumed _ List.suffix_rfl fun byHand => other byHand.1.symm
  · simp at step

theorem feeds_of_step (anchored : Activation.Anchored c.stack)
    (unforced : ∀ request next, c.focus = .code (.ask request next) → c.state.Unmoving request)
    (step : c.step = .ok config) : c.Feeds config := by
  by_cases wild : ∃ t target value next, c.focus = .code (.unwind t target value next)
  · obtain ⟨st, focus, stack⟩ := c
    obtain ⟨t, target, value, next, rfl⟩ := wild
    exact feeds_of_unwind step
  · refine feeds_of_does anchored unforced (does_of_step (fun t target value next same => ?_) step)
    exact wild ⟨t, target, value, next, same⟩

end Config

end Tasking
