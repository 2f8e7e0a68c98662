import Tasking.Proofs.Direct
import Tasking.Proofs.Ending

/-! # Direct style calls on a chain

The runtime keeps a chain of frames where a recursive evaluation would keep its pending calls, and hands
values and errors over in the registers of the task.  `State.Due` says what the two have in common
when a frame is about to be resumed, and `State.Inside` while its code runs.

Every way for a frame in direct style to end its code leads from inside the frame to where the next one
is resumed.
-/

namespace Tasking

variable {V C : Type}

namespace State

variable {st st' : State V C} {t : TaskId} {f g : FrameId} {chain below : List FrameId}

/-! ## Chains -/

/-- Each of these frames returns to the next one, and the last of them to none. -/
def Linked (st : State V C) : List FrameId → Prop
  | [] => True
  | f :: below => st.caller f = below.head? ∧ st.Linked below

theorem Linked.congr (linked : st.Linked chain) (same : ∀ g ∈ chain, st'.caller g = st.caller g) :
    st'.Linked chain := by
  induction chain with
  | nil => trivial
  | cons f below inductionHypothesis =>
    constructor
    · rw [same f List.mem_cons_self]
      exact linked.1
    · apply inductionHypothesis linked.2
      intro g member
      exact same g (List.mem_cons_of_mem f member)

theorem Linked.reaches_iff (linked : st.Linked (f :: below)) :
    Reaches st.caller f g ↔ g ∈ f :: below := by
  induction below generalizing f with
  | nil =>
    constructor
    · intro way
      cases way.cases_caller with
      | inl same => simp [same]
      | inr further =>
        obtain ⟨p, link, _⟩ := further
        simp [linked.1] at link
    · intro member
      rw [List.mem_singleton.1 member]
  | cons p rest inductionHypothesis =>
    have link : st.caller f = some p := linked.1
    rw [List.mem_cons, ← inductionHypothesis linked.2]
    constructor
    · intro way
      cases way.cases_caller with
      | inl same => exact .inl same.symm
      | inr further =>
        obtain ⟨p', link', rest⟩ := further
        exact .inr (Option.some.inj (link.symm.trans link') ▸ rest)
    · intro either
      cases either with
      | inl same => rw [same]
      | inr further => exact .head link further

/-- The runtime's own walk tells whether a frame is on a chain. -/
theorem isOnChain_linked (acyclic : Acyclic st.caller) (linked : st.Linked chain)
    (known : (st.frames.get? g).isSome = true) : st.isOnChain g chain.head? = true ↔ g ∈ chain := by
  cases chain with
  | nil => simp [isOnChain]
  | cons f below =>
    rw [isOnChain_iff, ← linked.reaches_iff]
    exact mem_chain_iff acyclic known

/-- The state after a frame was put on top of a chain. -/
def attached (st : State V C) (f : FrameId) (caller : Option FrameId) : State V C :=
  st.modifyFrame f fun frame => { frame with caller := caller }

theorem caller_attached {caller : Option FrameId} (known : (st.frames.get? f).isSome = true) :
    (st.attached f caller).caller = Function.update st.caller f caller :=
  caller_attach known caller

theorem attach_eq_ok (acyclic : Acyclic st.caller) (linked : st.Linked chain)
    (known : (st.frames.get? g).isSome = true) (apart : g ∉ chain) :
    st.attach g chain.head? = .ok (st.attached g chain.head?) := by
  obtain ⟨frame, found⟩ := Option.isSome_iff_exists.1 known
  have off : st.isOnChain g chain.head? = false := by
    rw [← Bool.not_eq_true, isOnChain_linked acyclic linked known]
    exact apart
  rw [attach, frame_ok.2 found, off]
  rfl

theorem acyclic_attached (acyclic : Acyclic st.caller) (linked : st.Linked chain)
    (known : (st.frames.get? g).isSome = true) (apart : g ∉ chain) :
    Acyclic (st.attached g chain.head?).caller := by
  rw [caller_attached known]
  apply acyclic.update
  intro c top way
  cases chain with
  | nil => simp at top
  | cons f below =>
    obtain rfl : f = c := Option.some.inj top
    exact apart (linked.reaches_iff.1 way)

theorem linked_attached (linked : st.Linked chain) (known : (st.frames.get? g).isSome = true)
    (apart : g ∉ chain) : (st.attached g chain.head?).Linked (g :: chain) := by
  constructor
  · rw [caller_attached known, Function.update_self]
  · apply linked.congr
    intro f member
    rw [caller_attached known, Function.update_of_ne]
    intro same
    exact apart (same ▸ member)

@[simp] theorem memory_attached (st : State V C) (f : FrameId) (caller : Option FrameId) :
    (st.attached f caller).memory = st.memory := by
  have code : (fun g => ((st.attached f caller).frames.get? g).map Frame.code) =
      fun g => (st.frames.get? g).map Frame.code := by
    funext g
    rw [attached, get?_modifyFrame]
    split
    · next same =>
      rw [same, Option.map_map]
      rfl
    · rfl
  have size : (st.attached f caller).frames.size = st.frames.size := Table.size_modify ..
  simp only [memory, code, Memory.mk.injEq, true_and]
  exact ⟨rfl, congrArg (fun n => (⟨n + 1⟩ : FrameId)) size⟩

@[simp] theorem memory_modifyTask (st : State V C) (t : TaskId) (change : Task V → Task V) :
    (st.modifyTask t change).memory = st.memory := rfl

end State

/-! ## What a task has in its registers -/

/-- The task runs, and has these in its registers. -/
structure Task.Poised (task : Task V) (top : Option FrameId) (value : V) (error : Option (Error V)) :
    Prop where
  running : task.life = .running
  calm : task.arranged = false
  listed : task.listed = true
  top : task.top = top
  value : task.value = value
  error : task.error = error

namespace State

variable {st st' : State V C} {t : TaskId} {f g : FrameId} {top top' : Option FrameId} {value value' : V}
  {error error' : Option (Error V)} {below : List FrameId}

/-- The task runs, and has these in its registers, and nothing is wrong with anything else. -/
structure Stands (st : State V C) (t : TaskId) (top : Option FrameId) (value : V)
    (error : Option (Error V)) : Prop where
  balanced : st.Balanced
  acyclic : Acyclic st.caller
  task : ∃ task, st.tasks.get? t = some task ∧ task.Poised top value error

namespace Stands

theorem going (stands : st.Stands t top value error) : st.isOver t = false := by
  obtain ⟨task, found, poised⟩ := stands.task
  simp [isOver, found, Task.isFinished, poised.running, Life.isTerminal]

/-- Loading other registers. -/
theorem load (stands : st.Stands t top value error) {change : Task V → Task V}
    (same : ∀ task : Task V, task.SameBooks (change task))
    (loads : ∀ task : Task V, task.Poised top value error →
      (change task).top = top' ∧ (change task).value = value' ∧ (change task).error = error') :
    (st.modifyTask t change).Stands t top' value' error' := by
  obtain ⟨task, found, poised⟩ := stands.task
  refine ⟨stands.balanced.modifyTask found same, stands.acyclic, change task, ?_, ?_⟩
  · rw [get?_modifyTask, if_pos rfl, found]
    rfl
  · obtain ⟨top, value, error⟩ := loads task poised
    have books := same task
    constructor
    · rw [books]
      exact poised.running
    · rw [books]
      exact poised.calm
    · rw [books]
      exact poised.listed
    · exact top
    · exact value
    · exact error

theorem attached (stands : st.Stands t top value error) {chain : List FrameId} (linked : st.Linked chain)
    (known : (st.frames.get? g).isSome = true) (apart : g ∉ chain) :
    (st.attached g chain.head?).Stands t top value error where
  balanced := stands.balanced.of_tables rfl rfl fun _ => rfl
  acyclic := acyclic_attached stands.acyclic linked known apart
  task := stands.task

end Stands

/-- The state in which the registers of a task hold nothing. -/
def unloaded [Inhabited V] (st : State V C) (t : TaskId) : State V C :=
  st.modifyTask t fun task => { task with value := default, error := none }

/-- Frame `now` of the task is about to be resumed, with those below waiting for its result. -/
structure Due (st : State V C) (t : TaskId) (now : Resume V) (below : List FrameId) : Prop where
  stands : st.Stands t (some now.frame) now.value now.error
  linked : st.Linked (now.frame :: below)

/-- The code of a frame of the task is running, with those below waiting for its result. -/
structure Inside [Inhabited V] (st : State V C) (t : TaskId) (f : FrameId) (below : List FrameId) :
    Prop where
  stands : st.Stands t (some f) default none
  linked : st.Linked (f :: below)
  known : (st.frames.get? f).isSome = true

end State

/-! ## From one frame to the next -/

namespace Config

variable [Inhabited V] {st st' : State V C} {t : TaskId} {f g callee next : FrameId} {value : V}
  {after : Focus V C} {stack : List (Activation V C)} {below : List FrameId} {body : Body V C}
  {now : Resume V} {result : Except (Error V) V}

/-- A frame is resumed with what is in the registers. -/
theorem steps_resume (after : Focus V C) (stack : List (Activation V C)) (due : st.Due t now below)
    (code : st.memory.code now.frame = some (.host body)) :
    ∃ st', (⟨st, .trampoline t after, stack⟩ : Config V C).Steps t 1 [now]
        ⟨st', .code (body ⟨t, now.frame⟩ now.value now.error), .frame t now.frame after :: stack⟩ ∧
      st'.memory = st.memory ∧ st'.Inside t now.frame below := by
  obtain ⟨frame, known, host⟩ := Option.map_eq_some_iff.1 code
  obtain ⟨task, found, poised⟩ := due.stands.task
  have stands : (st.unloaded t).Stands t (some now.frame) default none :=
    due.stands.load (fun _ => rfl) fun task poised => ⟨poised.top, rfl, rfl⟩
  refine ⟨st.unloaded t, ?_, rfl, stands, due.linked.congr fun _ _ => rfl,
    Option.isSome_iff_exists.2 ⟨frame, known⟩⟩
  have label : resume? (⟨st, .trampoline t after, stack⟩ : Config V C) = some now := by
    simp [resume?, found, poised.top, poised.value, poised.error]
  have step : Config.step (⟨st, .trampoline t after, stack⟩ : Config V C) = .ok
      ⟨st.unloaded t, .code (body ⟨t, now.frame⟩ now.value now.error), .frame t now.frame after :: stack⟩ := by
    simp only [Config.step, resumeTop, bind_ok, State.task_ok]
    refine ⟨task, found, ?_⟩
    rw [poised.top, poised.value, poised.error]
    simp only [mapState, resumeFrame, State.resume, bind_ok, State.frame_ok]
    exact ⟨_, ⟨frame, known, by rw [host]; rfl⟩, rfl⟩
  have steps := Steps.step due.stands.going step .none
  rwa [label] at steps

/-- A frame that jumps to what it put on top lands there. -/
theorem steps_jump (value : V) (after : Focus V C) (stack : List (Activation V C)) (stands : st.Stands t (some g) default none) (known : (st.frames.get? f).isSome = true) :
    ∃ st', (⟨st, .code (.answer (.jump g value)), .frame t f after :: stack⟩ : Config V C).Steps t 1 []
        ⟨st', .trampoline t after, stack⟩ ∧
      st'.memory = st.memory ∧ st'.caller = st.caller ∧ st'.Stands t (some g) value none := by
  obtain ⟨frame, there⟩ := Option.isSome_iff_exists.1 known
  obtain ⟨task, found, poised⟩ := stands.task
  have first : (st.modifyTask t fun task => { task with top := some g }).Stands t (some g) default none :=
    stands.load (fun _ => rfl) fun task poised => ⟨rfl, poised.value, poised.error⟩
  have second : (landAt (st.modifyTask t fun task => { task with top := some g }) t g value).Stands t
      (some g) value none := first.load (fun _ => rfl) fun task poised => ⟨rfl, rfl, rfl⟩
  have here : (if task.top = some f ∧ f ≠ g then frame.caller else task.top) = some g := by
    rw [poised.top, if_neg]
    intro elsewhere
    exact elsewhere.2 (Option.some.inj elsewhere.1).symm
  refine ⟨landAt (st.modifyTask t fun task => { task with top := some g }) t g value, ?_, rfl, rfl, second⟩
  apply Steps.single stands.going
  · have top : Agent.topAfterJump st t f g = some g := by
      simpa [Agent.topAfterJump, State.top, State.caller, found, there] using here
    simp [resume?, agent, Agent.resumed?, top]
  · simp only [Config.step, stepCode, deliver, takeAnswer, jump, bind_ok, State.task_ok, State.frame_ok]
    refine ⟨task, found, frame, there, ?_⟩
    rw [here, if_pos rfl]
    rfl

theorem Steps.ask {n : Nat} {c' : Config V C} {trace : List (Resume V)} {request : Request V C}
    {reply : request.Reply} {next : request.Reply → Program V C} (going : st.isOver t = false)
    (served : st.serve request = .ok (reply, st'))
    (later : (⟨st', .code (next reply), stack⟩ : Config V C).Steps t n trace c') :
    (⟨st, .code (.ask request next), stack⟩ : Config V C).Steps t (n + 1) trace c' := by
  apply Steps.step going ?_ later
  simp only [Config.step, stepCode, served]
  rfl

/-- A frame that puts another on top, which returns to where its place is, and jumps there. -/
theorem steps_attach (value : V) (after : Focus V C) (stack : List (Activation V C)) {caller : Option FrameId} {program : Program V C} {base : List FrameId}
    (inside : st.Inside t f below) (known : (st.frames.get? g).isSome = true) (linked : st.Linked base)
    (top : base.head? = caller) (apart : g ∉ base)
    (asks : program = .ask (.attach g caller) fun _ => .ask (.pause t g) fun _ => .answer (.jump g value)) :
    ∃ st', (⟨st, .code program, .frame t f after :: stack⟩ : Config V C).Steps t 3 []
        ⟨st', .trampoline t after, stack⟩ ∧
      st'.memory = st.memory ∧ st'.Due t ⟨g, value, none⟩ base := by
  subst asks top
  have stands := inside.stands.attached linked known apart
  obtain ⟨task, found, _⟩ := stands.task
  have attach : st.serve (.attach g base.head?) = .ok ((), st.attached g base.head?) := by
    simp only [State.serve, bind_ok]
    exact ⟨_, State.attach_eq_ok inside.stands.acyclic linked known apart, rfl⟩
  have pause : (st.attached g base.head?).serve (.pause t g) = .ok ((),
      (st.attached g base.head?).modifyTask t fun task => { task with top := some g }) := by
    simp only [State.serve, State.pause, bind_ok, State.task_ok]
    exact ⟨_, ⟨task, found, rfl⟩, rfl⟩
  have paused : ((st.attached g base.head?).modifyTask t fun task => { task with top := some g }).Stands t
      (some g) default none :=
    stands.load (fun _ => rfl) fun task poised => ⟨rfl, poised.value, poised.error⟩
  have known' : ((st.attached g base.head?).frames.get? f).isSome = true :=
    (State.isSome_modifyFrame st g f _).trans inside.known
  obtain ⟨st', jumps, memory, caller, landed⟩ := steps_jump value after stack paused known'
  refine ⟨st', ?_, ?_, landed, ?_⟩
  · apply Steps.ask inside.stands.going attach
    apply Steps.ask stands.going pause
    exact jumps
  · rw [memory, State.memory_modifyTask, State.memory_attached]
  · apply (State.linked_attached linked known apart).congr
    intro h _
    rw [caller]
    rfl

/-- A call. -/
theorem steps_call (value : V) (after : Focus V C) (stack : List (Activation V C)) (inside : st.Inside t f below) (known : (st.frames.get? g).isSome = true)
    (apart : g ∉ f :: below) :
    ∃ st', (⟨st, .code (.call ⟨t, f⟩ g value), .frame t f after :: stack⟩ : Config V C).Steps t 3 []
        ⟨st', .trampoline t after, stack⟩ ∧
      st'.memory = st.memory ∧ st'.Due t ⟨g, value, none⟩ (f :: below) :=
  steps_attach value after stack inside known inside.linked rfl apart rfl

theorem serve_frame (inside : st.Inside t f below) :
    ∃ view : Frame.View, st.serve (.frame f) = .ok (view, st) ∧ below.head? = view.caller := by
  obtain ⟨frame, there⟩ := Option.isSome_iff_exists.1 inside.known
  refine ⟨⟨frame.label, frame.caller, (st.chain f).length⟩, ?_, ?_⟩
  · simp only [State.serve, State.frameView, bind_ok, State.frame_ok]
    exact ⟨_, ⟨frame, there, rfl⟩, rfl⟩
  · rw [← inside.linked.1, State.caller, there]
    rfl

/-- Going on in another frame. -/
theorem steps_become (value : V) (after : Focus V C) (stack : List (Activation V C)) (inside : st.Inside t f below) (known : (st.frames.get? g).isSome = true)
    (apart : g ∉ below) :
    ∃ st', (⟨st, .code (.become ⟨t, f⟩ g value), .frame t f after :: stack⟩ : Config V C).Steps t 4 []
        ⟨st', .trampoline t after, stack⟩ ∧
      st'.memory = st.memory ∧ st'.Due t ⟨g, value, none⟩ below := by
  obtain ⟨view, looks, link⟩ := serve_frame inside
  obtain ⟨st', attaches, memory, due⟩ :=
    steps_attach value after stack inside known inside.linked.2 link apart rfl
  refine ⟨st', ?_, memory, due⟩
  apply Steps.ask inside.stands.going looks
  exact attaches

theorem resume?_finish : resume? (⟨st, .code (.answer (.ofResult result)), .frame t f after :: stack⟩ :
    Config V C) = none := by
  cases result <;> rfl

theorem step_finish : step (⟨st, .code (.answer (.ofResult result)), .frame t f after :: stack⟩ : Config V C) =
    finishFrame ⟨st, .code (.answer (.ofResult result)), stack⟩ t f result after := by
  cases result <;> rfl

/-- A frame that finished returns to the one below it. -/
theorem steps_return (result : Except (Error V) V) (after : Focus V C) (stack : List (Activation V C)) (inside : st.Inside t g (f :: below)) :
    ∃ st', (⟨st, .code (.answer (.ofResult result)), .frame t g after :: stack⟩ : Config V C).Steps t 1 []
        ⟨st', .trampoline t after, stack⟩ ∧
      st'.memory = st.memory ∧ st'.Due t (.after f result) below := by
  obtain ⟨frame, there⟩ := Option.isSome_iff_exists.1 inside.known
  obtain ⟨task, found, poised⟩ := inside.stands.task
  have link : frame.caller = some f := by simpa [State.caller, there] using inside.linked.1
  have loaded : (st.modifyTask t fun task => returnTo task f result).Stands t (some f)
      (Resume.after f result).value (Resume.after f result).error := by
    apply inside.stands.load
    · intro task
      cases result <;> rfl
    · intro task poised
      cases result with
      | ok value => exact ⟨rfl, rfl, poised.error⟩
      | error error => exact ⟨rfl, poised.value, rfl⟩
  refine ⟨st.modifyTask t fun task => returnTo task f result, ?_, rfl, (Resume.frame_after f result).symm ▸ loaded, ?_⟩
  · apply Steps.single inside.stands.going resume?_finish
    simp only [step_finish, finishFrame, bind_ok, State.task_ok, State.check_ok, State.frame_ok]
    refine ⟨task, found, by simp [poised.top], frame, there, ?_⟩
    rw [link]
    rfl
  · rw [Resume.frame_after]
    exact inside.linked.2.congr fun _ _ => rfl

end Config

/-! ## The end -/

namespace State

/-- The task is at its end with a result: it has its outcome, and no frames. -/
structure Closed (st : State V C) (t : TaskId) (result : Except (Error V) V) : Prop where
  task : ∃ task, st.tasks.get? t = some task ∧ task.life = finalLife result ∧
    task.outcome = some (outcomeOf t result) ∧ task.top = none

theorem Closed.isOver {st : State V C} {t : TaskId} {result : Except (Error V) V}
    (closed : st.Closed t result) : st.isOver t = true := by
  obtain ⟨task, found, life, _⟩ := closed.task
  simp [State.isOver, found, Task.isFinished, life, isTerminal_finalLife]

/-- A task ends with one result. -/
theorem Closed.unique {st : State V C} {t : TaskId} {result result' : Except (Error V) V}
    (closed : st.Closed t result) (closed' : st.Closed t result') : result = result' := by
  obtain ⟨task, found, _, outcome, _⟩ := closed.task
  obtain ⟨task', found', _, outcome', _⟩ := closed'.task
  obtain rfl := Option.some.inj (found.symm.trans found')
  have same := Option.some.inj (outcome.symm.trans outcome')
  cases result <;> cases result' <;> simp_all [outcomeOf]

end State

namespace Config

variable [Inhabited V] {st : State V C} {t : TaskId} {f : FrameId} {after : Focus V C}
  {stack : List (Activation V C)} {result : Except (Error V) V}

/-- The last frame of a task finished. -/
theorem steps_finish (result : Except (Error V) V) (after : Focus V C) (stack : List (Activation V C)) (inside : st.Inside t f []) :
    ∃ st', (⟨st, .code (.answer (.ofResult result)), .frame t f after :: stack⟩ : Config V C).Steps t 1 []
        ⟨st', after, stack⟩ ∧ st'.Closed t result := by
  obtain ⟨frame, there⟩ := Option.isSome_iff_exists.1 inside.known
  obtain ⟨task, found, poised⟩ := inside.stands.task
  have link : frame.caller = none := by simpa [State.caller, there] using inside.linked.1
  -- Nothing can go wrong once the chain is empty and the worker let go of the task.
  have emptied : (st.modifyTask t fun task => { task with top := none }).Stands t none default none :=
    inside.stands.load (fun _ => rfl) fun task poised => ⟨rfl, poised.value, poised.error⟩
  have left : ((st.modifyTask t fun task => { task with top := none }).endRun t).Stands t none default none :=
    emptied.load (fun _ => rfl) fun task poised => ⟨poised.top, poised.value, poised.error⟩
  obtain ⟨last, found', poised'⟩ := left.task
  obtain ⟨st', finished⟩ :=
    left.balanced.exists_finish result found' poised'.running poised'.calm poised'.listed
  obtain ⟨_, ends⟩ := left.balanced.finish found' poised'.calm poised'.listed finished
  refine ⟨st', ?_, ⟨_, (ends t).trans (if_pos rfl), rfl, rfl, rfl⟩⟩
  apply Steps.single inside.stands.going resume?_finish
  simp only [step_finish, finishFrame, bind_ok, State.task_ok, State.check_ok, State.frame_ok]
  refine ⟨task, found, by simp [poised.top], frame, there, ?_⟩
  rw [link]
  simp only [finishRun, mapState, tryState, bind_ok]
  exact ⟨_, ⟨st', finished, rfl⟩, rfl⟩

end Config

end Tasking
