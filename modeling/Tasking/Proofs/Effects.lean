import Tasking.Proofs.Attaching
import Tasking.Proofs.Links

/-! # What operations do to a picture

Each operation of the runtime that concerns chains or ownership has its counterpart on pictures,
and everything else leaves the picture as it is.
-/

namespace Tasking.State

variable {V C : Type} {st st' : State V C} {stage : TaskId → Option Stage}

theorem picture_congr (frames : st'.frames = st.frames) (resources : st'.resources = st.resources)
    (top : ∀ t, st'.top t = st.top t) (stage : TaskId → Option Stage) :
    st'.picture stage = st.picture stage := by
  simp only [State.picture, Picture.mk.injEq]
  refine ⟨?_, ?_, ?_, funext top, ?_, ?_, trivial⟩
  · rw [frames]
  · unfold caller
    rw [frames]
  · unfold guard?
    rw [frames]
  · unfold owner
    rw [resources]
  · unfold waiters
    rw [resources]

theorem Quiet.picture (quiet : Quiet st st') (stage : TaskId → Option Stage) :
    st'.picture stage = st.picture stage :=
  picture_congr quiet.frames quiet.resources quiet.top stage

theorem Stops.picture {t : TaskId} (stops : Stops t st st') (stage : TaskId → Option Stage) :
    st'.picture stage = st.picture stage :=
  picture_congr stops.frames stops.resources stops.top stage

/-- The run of a task that stays at the top. -/
theorem picture_stage (st : State V C) (stage : TaskId → Option Stage) (t : TaskId)
    (s : Option Stage) :
    st.picture (Function.update stage t s) = (st.picture stage).move t (st.top t) s := by
  simp [State.picture, Picture.move]

theorem top_modifyTask_eq {t : TaskId} {f : Task V → Task V} {top : Option FrameId}
    (known : (st.tasks.get? t).isSome = true) (sets : ∀ task, (f task).top = top) :
    (st.modifyTask t f).top = Function.update st.top t top := by
  obtain ⟨task, found⟩ := Option.isSome_iff_exists.1 known
  funext u
  by_cases same : u = t
  · subst same
    simp [State.top, get?_modifyTask, found, sets]
  · simp [State.top, get?_modifyTask, same]

/-- The run of a task that goes to another frame. -/
theorem picture_modifyTask {t : TaskId} {f : Task V → Task V} {top : Option FrameId}
    (known : (st.tasks.get? t).isSome = true) (sets : ∀ task, (f task).top = top)
    (s : Option Stage) :
    (st.modifyTask t f).picture (Function.update stage t s) = (st.picture stage).move t top s := by
  simp only [State.picture, Picture.move, top_modifyTask_eq known sets]
  rfl

theorem top_of_get? {t : TaskId} {task : Task V} (found : st.tasks.get? t = some task) :
    st.top t = task.top := by
  simp [State.top, found]

theorem isSome_of_top {t : TaskId} {f : FrameId} (top : st.top t = some f) :
    (st.tasks.get? t).isSome = true := by
  obtain ⟨task, found, _⟩ := Option.bind_eq_some_iff.1 top
  simp [found]

/-! ## Frames -/

theorem isSome_modifyFrame (st : State V C) (f g : FrameId)
    (change : Frame V (Body V C) → Frame V (Body V C)) :
    ((st.modifyFrame f change).frames.get? g).isSome = (st.frames.get? g).isSome := by
  rw [get?_modifyFrame]
  split
  · next same => rw [Option.isSome_map, same]
  · rfl

theorem caller_modifyFrame {f : FrameId} {change : Frame V (Body V C) → Frame V (Body V C)}
    (keeps : ∀ frame, (change frame).caller = frame.caller) :
    (st.modifyFrame f change).caller = st.caller := by
  funext g
  unfold caller
  rw [get?_modifyFrame]
  split
  · next same =>
    subst same
    cases st.frames.get? g with
    | none => rfl
    | some frame => simp [keeps]
  · rfl

theorem guard?_modifyFrame {f : FrameId} {change : Frame V (Body V C) → Frame V (Body V C)}
    (keeps : ∀ frame, (change frame).code.guard? = frame.code.guard?) :
    (st.modifyFrame f change).guard? = st.guard? := by
  funext g
  unfold guard?
  rw [get?_modifyFrame]
  split
  · next same =>
    subst same
    cases st.frames.get? g with
    | none => rfl
    | some frame => simp [keeps]
  · rfl

/-- Code that is not a guard's may change freely. -/
theorem picture_setCode {f : FrameId} {code : Frame.Code V (Body V C)} (plain : st.guard? f = none)
    (still : code.guard? = none) : (st.setCode f code).picture stage = st.picture stage := by
  have guard : (st.setCode f code).guard? = st.guard? := by
    funext g
    unfold setCode
    by_cases same : g = f
    · subst same
      rw [plain]
      unfold guard?
      rw [get?_modifyFrame, if_pos rfl]
      cases st.frames.get? g with
      | none => rfl
      | some frame => simp [still]
    · unfold guard?
      rw [get?_modifyFrame, if_neg same]
  have caller : (st.setCode f code).caller = st.caller := caller_modifyFrame fun _ => rfl
  simp only [State.picture, guard, caller]
  simp [setCode, isSome_modifyFrame]
  exact ⟨rfl, rfl, rfl⟩

/-- The frame is among the frames that can be reached from its new caller, if it is attached
    below itself. -/
theorem isOnChain_of_reaches (acyclic : Acyclic st.caller) {f k : FrameId}
    (known : (st.frames.get? f).isSome = true) (way : Reaches st.caller k f) :
    st.isOnChain f (some k) = true :=
  (st.isOnChain_iff f (some k)).2 ((mem_chain_iff acyclic known).2 way)

theorem attach_ok {f : FrameId} {c : Option FrameId} (done : st.attach f c = .ok st') :
    (st.frames.get? f).isSome = true ∧ st.isOnChain f c = false ∧
      st' = st.modifyFrame f fun frame => { frame with caller := c } := by
  simp only [State.attach, bind_ok, frame_ok, check_ok, pure_ok] at done
  obtain ⟨frame, found, apart, rfl⟩ := done
  exact ⟨by simp [found], by simpa using apart, rfl⟩

theorem caller_attach {f : FrameId} (known : (st.frames.get? f).isSome = true) (c : Option FrameId) :
    (st.modifyFrame f fun frame => { frame with caller := c }).caller = Function.update st.caller f c := by
  obtain ⟨frame, found⟩ := Option.isSome_iff_exists.1 known
  funext g
  by_cases same : g = f
  · subst same
    simp [State.caller, get?_modifyFrame, found]
  · simp [State.caller, get?_modifyFrame, same]

theorem picture_attach {f : FrameId} {c : Option FrameId} (done : st.attach f c = .ok st') :
    st'.picture stage = (st.picture stage).attach f c := by
  obtain ⟨known, _, rfl⟩ := attach_ok done
  have caller := caller_attach known c
  have guard : (st.modifyFrame f fun frame => { frame with caller := c }).guard? = st.guard? :=
    guard?_modifyFrame fun _ => rfl
  simp only [State.picture, Picture.attach, guard, caller, isSome_modifyFrame]
  rfl

theorem pause_ok {t : TaskId} {f : FrameId} (done : st.pause t f = .ok st') :
    (st.tasks.get? t).isSome = true ∧
      st' = st.modifyTask t fun task => { task with top := some f } := by
  simp only [State.pause, bind_ok, task_ok, pure_ok] at done
  obtain ⟨task, found, rfl⟩ := done
  exact ⟨by simp [found], rfl⟩

theorem picture_pause {t : TaskId} {f : FrameId} (done : st.pause t f = .ok st') :
    st'.picture stage = (st.picture stage).move t (some f) (stage t) := by
  obtain ⟨known, rfl⟩ := pause_ok done
  have same : _ = (st.picture stage).move t (some f) (stage t) := picture_modifyTask known
    (f := fun task => { task with top := some f }) (fun _ => rfl) (stage t)
  rwa [Function.update_eq_self] at same

theorem guard?_setCode {f : FrameId} {code : Frame.Code V (Body V C)}
    (known : (st.frames.get? f).isSome = true) :
    (st.setCode f code).guard? = Function.update st.guard? f code.guard? := by
  obtain ⟨frame, found⟩ := Option.isSome_iff_exists.1 known
  funext g
  by_cases same : g = f
  · subst same
    simp [guard?, setCode, get?_modifyFrame, found]
  · simp [guard?, setCode, get?_modifyFrame, same]

theorem caller_setCode (f : FrameId) (code : Frame.Code V (Body V C)) :
    (st.setCode f code).caller = st.caller := caller_modifyFrame fun _ => rfl

theorem isSome_setCode (f g : FrameId) (code : Frame.Code V (Body V C)) :
    ((st.setCode f code).frames.get? g).isSome = (st.frames.get? g).isSome :=
  isSome_modifyFrame st f g _

theorem isSome_of_guard? {f : FrameId} {guard : ResourceId × Phase V}
    (guards : st.guard? f = some guard) : (st.frames.get? f).isSome = true := by
  obtain ⟨frame, found, _⟩ := Option.bind_eq_some_iff.1 guards
  simp [found]

@[simp] theorem top_setCode (f : FrameId) (code : Frame.Code V (Body V C)) :
    (st.setCode f code).top = st.top := rfl

@[simp] theorem owner_setCode (f : FrameId) (code : Frame.Code V (Body V C)) :
    (st.setCode f code).owner = st.owner := rfl

@[simp] theorem waiters_setCode (f : FrameId) (code : Frame.Code V (Body V C)) :
    (st.setCode f code).waiters = st.waiters := rfl

theorem Within.setCode (t : TaskId) (st : State V C) (f : FrameId)
    (code : Frame.Code V (Body V C)) : Within t st (st.setCode f code) :=
  .of_top (.modifyFrame st f _) rfl

/-! ## Resources -/

theorem owner_setOwner {r : ResourceId} {owner : Option TaskId}
    (known : (st.resources.get? r).isSome = true) :
    (st.setOwner r owner).owner = Function.update st.owner r owner :=
  owner_modifyResource (f := fun resource => { resource with owner := owner }) known
    fun _ => rfl

@[simp] theorem top_setOwner (r : ResourceId) (owner : Option TaskId) :
    (st.setOwner r owner).top = st.top := rfl

@[simp] theorem waiters_setOwner (r : ResourceId) (owner : Option TaskId) :
    (st.setOwner r owner).waiters = st.waiters :=
  waiters_modifyResource_keep (f := fun resource => { resource with owner := owner })
    fun _ => rfl

@[simp] theorem top_announceWait (t : TaskId) (target : WaitTarget) :
    (st.announceWait t target).top = st.top :=
  funext (top_modifyTask (f := fun task => { task with waiting := some target }) fun _ => rfl)

@[simp] theorem owner_announceWait (t : TaskId) (target : WaitTarget) :
    (st.announceWait t target).owner = st.owner := rfl

@[simp] theorem waiters_announceWait (t : TaskId) (target : WaitTarget) :
    (st.announceWait t target).waiters = st.waiters := rfl

theorem link_announceWait (t : TaskId) (target : WaitTarget) (u : TaskId) :
    (st.announceWait t target).link u = st.link u := by
  refine (link_modifyTask st t u _).trans ?_
  split
  · next same => subst same; rfl
  · rfl

@[simp] theorem top_inLine (t : TaskId) (r : ResourceId) : (st.inLine t r).top = st.top :=
  funext (top_modifyTask (f := fun task => { task with linked := true }) fun _ => rfl)

@[simp] theorem owner_inLine (t : TaskId) (r : ResourceId) : (st.inLine t r).owner = st.owner :=
  owner_modifyResource_keep
    (f := fun resource => { resource with waiters := resource.waiters.push t }) fun _ => rfl

theorem waiters_inLine_eq {t : TaskId} {r : ResourceId}
    (known : (st.resources.get? r).isSome = true) :
    (st.inLine t r).waiters = Function.update st.waiters r (st.waiters r ++ [t]) := by
  funext q
  rw [waiters_inLine known, Function.update_apply]

theorem Within.inLine {t : TaskId} {s : SchedulerId} {r : ResourceId}
    (free : st.link t = some (s, false)) (known : (st.resources.get? r).isSome = true) :
    Within t st (st.inLine t r) := by
  refine .of_top (.of_tasks ?_ fun lined => lined.inLine free known) (top_inLine t r)
  exact life_modifyTask_keep (f := fun task => { task with linked := true }) fun _ => rfl

@[simp] theorem top_handed (t : TaskId) (r : ResourceId) (rest : Line TaskId) :
    (st.handed t r rest).top = st.top :=
  funext (top_modifyTask (f := fun task => { task with linked := false }) fun _ => rfl)

theorem Within.handed {u t : TaskId} {r : ResourceId} {rest : Line TaskId}
    (known : (st.resources.get? r).isSome = true) (line : st.waiters r = t :: rest.toList)
    (distinct : (st.waiters r).Nodup) (elsewhere : ∀ q, q ≠ r → t ∉ st.waiters q) :
    Within u st (st.handed t r rest) := by
  refine .of_top (.of_tasks ?_ fun lined => lined.handed known line distinct elsewhere)
    (top_handed t r rest)
  exact life_modifyTask_keep (f := fun task => { task with linked := false }) fun _ => rfl

theorem owner_handed {t : TaskId} {r : ResourceId} {rest : Line TaskId}
    (known : (st.resources.get? r).isSome = true) :
    (st.handed t r rest).owner = Function.update st.owner r (some t) :=
  owner_modifyResource
    (f := fun resource => { resource with owner := some t, waiters := rest }) known fun _ => rfl

theorem waiters_handed_eq {t : TaskId} {r : ResourceId} {rest : Line TaskId}
    (known : (st.resources.get? r).isSome = true) :
    (st.handed t r rest).waiters = Function.update st.waiters r rest.toList := by
  funext q
  rw [waiters_handed known, Function.update_apply]

theorem owner_of_get? {r : ResourceId} {resource : Resource}
    (found : st.resources.get? r = some resource) : st.owner r = resource.owner := by
  simp [owner, found]

theorem waiters_of_get? {r : ResourceId} {resource : Resource}
    (found : st.resources.get? r = some resource) : st.waiters r = resource.waiters.toList := by
  simp [waiters, found]

/-- A guard went to another phase, and its resource to another owner and other waiters. -/
theorem picture_ward {f : FrameId} {r : ResourceId} {phase : Phase V} {owner : Option TaskId}
    {waiters : List TaskId}
    (frames : ∀ g, (st'.frames.get? g).isSome = (st.frames.get? g).isSome)
    (caller : st'.caller = st.caller)
    (guard : st'.guard? = Function.update st.guard? f (some (r, phase)))
    (top : st'.top = st.top) (owns : st'.owner = Function.update st.owner r owner)
    (line : st'.waiters = Function.update st.waiters r waiters) :
    st'.picture stage = (st.picture stage).ward f r phase owner waiters := by
  simp only [State.picture, Picture.ward, frames, caller, guard, top, owns, line]

/-- A guard went to another phase, and no resource changed. -/
theorem picture_setCode_guard {f : FrameId} {r : ResourceId} {phase : Phase V}
    (known : (st.frames.get? f).isSome = true) :
    (st.setCode f (.guard r phase)).picture stage =
      (st.picture stage).ward f r phase (st.owner r) (st.waiters r) := by
  refine picture_ward (fun g => isSome_setCode f g _) (caller_setCode f _) (guard?_setCode known) rfl
    ?_ ?_
  · rw [Function.update_eq_self]
    rfl
  · rw [Function.update_eq_self]
    rfl

theorem owns_iff {t : TaskId} {r : ResourceId} : st.owns t r = true ↔ st.owner r = some t := by
  unfold owns owner
  cases st.resources.get? r <;> simp

theorem acquire_ok {r : ResourceId} {t : TaskId} {granted : Except Deadlock Grant}
    (done : st.acquire r t = .ok (granted, st')) :
    (st.resources.get? r).isSome = true ∧ (st.tasks.get? t).isSome = true ∧
      ((granted = .ok .acquired ∧ st.owner r = none ∧ st' = st.setOwner r (some t)) ∨
        st.owner r ≠ none ∧
          ((∃ refusal, granted = .error refusal ∧ st.refusal? t (.resource r) = some refusal ∧
              st' = st) ∨
            granted = .ok .blocked ∧ st.refusal? t (.resource r) = none ∧
              (∃ s, st.link t = some (s, false)) ∧
              st' = (st.announceWait t (.resource r)).inLine t r)) := by
  simp only [acquire, tryAcquire, bind_ok, resource_ok, task_ok] at done
  obtain ⟨⟨taken, st₁⟩, ⟨resource, found, task, known, tried⟩, done⟩ := done
  refine ⟨by simp [found], by simp [known], ?_⟩
  rw [owner_of_get? found]
  split at tried
  · next nobody =>
    simp only [pure_ok, Prod.mk.injEq] at tried
    obtain ⟨rfl, rfl⟩ := tried
    simp only [↓reduceIte, pure_ok, Prod.mk.injEq] at done
    exact .inl ⟨done.1.symm, by simpa using nobody, done.2.symm⟩
  · next somebody =>
    simp only [pure_ok, Prod.mk.injEq] at tried
    obtain ⟨rfl, rfl⟩ := tried
    refine .inr ⟨by simpa using somebody, ?_⟩
    simp only [Bool.false_eq_true, ↓reduceIte] at done
    split at done
    · next refusal refused =>
      simp only [pure_ok, Prod.mk.injEq] at done
      exact .inl ⟨refusal, done.1.symm, refused, done.2.symm⟩
    · next allowed =>
      simp only [joinQueue, claimLink, bind_ok, task_ok, check_ok, pure_ok, Prod.mk.injEq] at done
      obtain ⟨_, ⟨_, ⟨announced, found', free, rfl⟩, rfl⟩, rfl, rfl⟩ := done
      refine .inr ⟨rfl, allowed, ?_, rfl⟩
      rw [announceWait, get?_modifyTask, if_pos rfl, known] at found'
      obtain rfl := Option.some.inj found'
      exact ⟨task.scheduler, by simp [link, known, show task.linked = false by simpa using free]⟩

theorem release_ok {r : ResourceId} {t : TaskId} (done : st.release r t = .ok st') :
    (st.resources.get? r).isSome = true ∧ st.owner r = some t ∧
      ((st.waiters r = [] ∧ st' = st.setOwner r none) ∨
        ∃ next rest, st.waiters r = next :: rest.toList ∧
          (st.handed next r rest).ready next = .ok st') := by
  simp only [release, bind_ok, resource_ok, check_ok] at done
  obtain ⟨resource, found, owns, done⟩ := done
  refine ⟨by simp [found], (owner_of_get? found).trans (by simpa using owns), ?_⟩
  rw [waiters_of_get? found]
  split at done
  · next empty =>
    exact .inl ⟨(Line.pop?_eq_none_iff _).1 empty, (pure_ok.1 done).symm⟩
  · next next' rest popped =>
    exact .inr ⟨next', rest, Line.toList_of_pop? popped, done⟩

end Tasking.State
