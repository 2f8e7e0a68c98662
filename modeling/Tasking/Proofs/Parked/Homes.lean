import Tasking.Proofs.Parked.Respect

/-! # Tasks that mind their own frames

If each frame is there for one task, and the code that a task runs puts no frames on other tasks' chains and
unwinds no other task by hand, then a step of a thread respects all tasks that the thread has not in hand
(`Config.respects_of_step`).
-/

namespace Tasking

variable {V C : Type} {home : FrameId → TaskId}

namespace State

variable {st st' : State V C} {t : TaskId} {f : FrameId} {runner : Option TaskId}

/-- The chain of a task is the business of its own run, and of everybody before it is started. -/
def MayChange (st : State V C) (runner : Option TaskId) (t : TaskId) : Prop :=
  runner = some t ∨ st.life t = none ∨ st.life t = some .init

/-- What code may ask for that minds its own frames.  `runner` is the task whose run the code belongs to. -/
def Minds (home : FrameId → TaskId) (st : State V C) (runner : Option TaskId) : Request V C → Prop
  | .move _ _ => False
  | .spawn _ entry | .spawnBound _ entry => st.Known entry ∧ home entry = st.tasks.next
  | .attach f caller => st.MayChange runner (home f) ∧ ∀ g, caller = some g → st.Known g ∧ home g = home f
  | .pause t f => st.MayChange runner t ∧ st.Known f ∧ home f = t
  | .newGuard _ body => st.Known body ∧ home body = home st.frames.next
  | .newMessage _ _ => home st.frames.next = home ⟨st.frames.next.number + 1⟩
  | _ => True

variable {kept : TaskId → Prop}

/-! ## Requests -/

theorem awaited?_addFrame (frame : Frame V (Body V C)) : (st.addFrame frame).2.awaited? st.frames.next =
    match frame.code with
    | .guard _ (.start body) | .guard _ (.waiting body _) => some body
    | _ => none := by
  have code : (st.addFrame frame).2.code? st.frames.next = some frame.code := by
    rw [code?, State.addFrame, Table.get?_add_eq, if_pos rfl]
    rfl
  rw [awaited?, code]
  split <;> simp_all

theorem respects_attach {caller : Option FrameId} (free : ¬ kept (home f))
    (callers : ∀ g, caller = some g → st.Known g ∧ home g = home f) (done : st.attach f caller = .ok st') :
    Respects home kept st st' := by
  obtain ⟨known, _, rfl⟩ := attach_ok done
  refine .modifyFrame free (fun frame g _ link => .inr (callers g link)) fun body waits => .inl ?_
  obtain ⟨frame, found⟩ := Option.isSome_iff_exists.1 known
  rwa [awaited?_of_code? (show (st.modifyFrame f fun frame => { frame with caller := caller }).code? f =
    st.code? f by rw [code?, get?_modifyFrame, if_pos rfl, code?, found]; rfl)] at waits

theorem respects_pause (free : ¬ kept t) (known : st.Known f) (own : home f = t) (done : st.pause t f = .ok st') :
    Respects home kept st st' := by
  obtain ⟨there, rfl⟩ := pause_ok done
  obtain ⟨task, found⟩ := Option.isSome_iff_exists.1 there
  refine .of_becomes found (becomes_modifyTask found _) rfl id free fun g top => .inr ?_
  obtain rfl := Option.some.inj top
  exact ⟨known, own⟩

variable [Inhabited V]

theorem respects_spawned (s : SchedulerId) (entry : FrameId) (own : Option Nat) (known : st.Known entry)
    (new : home entry = st.tasks.next) :
    Respects home kept st ((st.addTask s entry own).2.enlist s st.tasks.next) := by
  refine .of_new (get?_spawned s entry own) rfl fun f top => ?_
  obtain rfl := Option.some.inj top
  exact ⟨known, new⟩

theorem respects_spawnBound {s : SchedulerId} {entry : FrameId} {reply : Except HostError TaskId}
    (known : st.Known entry) (new : home entry = st.tasks.next) (done : st.spawnBound s entry = .ok (reply, st')) :
    Respects home kept st st' := by
  simp only [State.spawnBound, bind_ok] at done
  obtain ⟨scheduler, _, done⟩ := done
  split at done
  · obtain rfl : st = st' := congrArg Prod.snd (pure_ok.1 done)
    rfl
  · split at done
    · obtain rfl : _ = st' := congrArg Prod.snd (pure_ok.1 done)
      refine .of_new (fun u => st.tasks.get?_add_eq _ u) rfl fun f top => ?_
      obtain rfl := Option.some.inj top
      exact ⟨known, new⟩
    · simp at done
    · simp only [bind_ok, startBound] at done
      obtain ⟨st₁, started, done⟩ := done
      obtain rfl : st₁ = st' := congrArg Prod.snd (pure_ok.1 done)
      refine .trans ?_ (.of_steady (steady_start started) (Quiet.start started).frames)
      refine .of_new (get?_spawned s entry (some scheduler.nextThread)) rfl fun f top => ?_
      obtain rfl := Option.some.inj top
      exact ⟨known, new⟩

/-- Code that minds its own frames asks for nothing that concerns other tasks that were started. -/
theorem respects_serve {request : Request V C} {reply : request.Reply} (minds : st.Minds home runner request)
    (done : st.serve request = .ok (reply, st')) : Respects home (fun u => ¬ st.MayChange runner u) st st' := by
  cases request with
  | move => exact minds.elim
  | spawn s entry =>
    simp only [serve, State.spawn, bind_ok] at done
    obtain ⟨scheduler, _, done⟩ := done
    split at done
    · obtain rfl : st = st' := congrArg Prod.snd (pure_ok.1 done)
      rfl
    · obtain rfl : _ = st' := congrArg Prod.snd (pure_ok.1 done)
      exact respects_spawned s entry none minds.1 minds.2
  | spawnBound s entry => exact respects_spawnBound minds.1 minds.2 done
  | pause t f =>
    simp only [serve, bind_ok, pure_ok, Prod.mk.injEq] at done
    obtain ⟨_, paused, _, rfl⟩ := done
    exact respects_pause (not_not_intro minds.1) minds.2.1 minds.2.2 paused
  | attach f caller =>
    simp only [serve, bind_ok, pure_ok, Prod.mk.injEq] at done
    obtain ⟨_, attached, _, rfl⟩ := done
    exact respects_attach (not_not_intro minds.1) minds.2 attached
  | newGuard r body =>
    obtain rfl : _ = st' := congrArg Prod.snd (pure_ok.1 done)
    refine .addFrame rfl fun other waits => ?_
    rw [awaited?_addFrame] at waits
    exact Option.some.inj waits ▸ minds
  | newJoin child =>
    obtain rfl : _ = st' := congrArg Prod.snd (pure_ok.1 done)
    exact .addFrame rfl fun other waits => by simp [awaited?_addFrame] at waits
  | newMessage a message =>
    simp only [serve, State.addMessage, bind_ok, pure_ok] at done
    obtain ⟨actor, _, exclusive, _, made⟩ := done
    obtain rfl : _ = st' := congrArg Prod.snd made
    have body : Respects home (fun u => ¬ st.MayChange runner u) st
        (st.addFrame ⟨"actor-message", none, .message a message false⟩).2 :=
      .addFrame rfl fun other waits => by simp [awaited?_addFrame] at waits
    refine body.trans (.addFrame rfl fun other waits => ?_)
    rw [awaited?_addFrame] at waits
    obtain rfl := Option.some.inj waits
    refine ⟨by simp [Known, State.addFrame, Table.get?_add_eq], ?_⟩
    simpa [Minds, State.addFrame, Table.next, Table.add] using minds
  | _ => exact .of_steady (steady_serve trivial done) (frames_serve done rfl)

/-! ## Resuming frames -/

omit [Inhabited V] in
theorem respects_setCode {code : Frame.Code V (Body V C)} (known : st.Known f) (free : ¬ kept (home f))
    (awaited : ∀ r body, code = .guard r (.start body) ∨ (∃ value, code = .guard r (.waiting body value)) →
      st.Known body ∧ home body = home f) : Respects home kept st (st.setCode f code) := by
  refine .modifyFrame free (fun frame g found link => .inl ?_) fun body waits => .inr ?_
  · rw [State.caller, found]
    exact link
  · rw [show st.modifyFrame f (fun frame => { frame with code := code }) = st.setCode f code from rfl, awaited?,
      code?_setCode known] at waits
    split at waits
    · next r body' same =>
      obtain rfl := Option.some.inj waits
      exact awaited r _ (.inl (Option.some.inj same))
    · next r body' value same =>
      obtain rfl := Option.some.inj waits
      exact awaited r _ (.inr ⟨value, Option.some.inj same⟩)
    · cases waits

omit [Inhabited V] in
theorem respects_callFrame {callee : FrameId} {value : V} {answer : Answer V} (known : st.Known f)
    (own : home f = t) (own' : home callee = t) (done : st.callFrame t f callee value = .ok (answer, st')) :
    Respects home (· ≠ t) st st' := by
  simp only [callFrame, bind_ok, pure_ok, Prod.mk.injEq] at done
  obtain ⟨st₁, attached, st₂, paused, _, rfl⟩ := done
  have attaches : Respects home (· ≠ t) st st₁ := by
    refine respects_attach (by simp [own']) (fun g same => ?_) attached
    obtain rfl := Option.some.inj same
    exact ⟨known, own.trans own'.symm⟩
  have there : st.Known callee := (attach_ok attached).1
  exact attaches.trans (respects_pause (by simp) (attaches.known there) own' paused)

omit [Inhabited V] in
theorem respects_resumeGuard {r : ResourceId} {phase : Phase V} {value : V} {error : Option (Error V)}
    {answer : Answer V} (housed : st.Housed home) (own : home f = t) (code : st.code? f = some (.guard r phase))
    (done : st.resumeGuard t f r phase value error = .ok (answer, st')) : Respects home (· ≠ t) st st' := by
  have known : st.Known f := by
    obtain ⟨frame, found, _⟩ := Option.map_eq_some_iff.1 code
    simp [Known, found]
  have released : Respects home (· ≠ t) st (st.setCode f (.guard r .released)) :=
    respects_setCode known (by simp [own]) (by simp)
  -- The guard calls its body, whatever became of the frames and tasks of others before.
  have calls {st₁ : State V C} {body : FrameId} {value : V} (respects : Respects home (· ≠ t) st st₁)
      (own' : home body = t) (called : (st₁.setCode f (.guard r .held)).callFrame t f body value = .ok (answer, st')) :
      Respects home (· ≠ t) st st' := by
    have held : Respects home (· ≠ t) st₁ (st₁.setCode f (.guard r .held)) :=
      respects_setCode (respects.known known) (by simp [own]) (by simp)
    exact (respects.trans held).trans (respects_callFrame (held.known (respects.known known)) own own' called)
  cases phase with
  | start body =>
    have waits : st.awaited? f = some body := by rw [awaited?, code]
    obtain ⟨there, own'⟩ := housed.awaited waits
    simp only [State.resumeGuard] at done
    split at done
    · simp only [pure_ok, Prod.mk.injEq] at done
      exact done.2 ▸ released
    · simp only [bind_ok] at done
      obtain ⟨⟨granted, st₁⟩, acquired, done⟩ := done
      have asked := released.trans (.of_steady (steady_acquire acquired) (frames_acquire acquired))
      dsimp only at done
      split at done
      · exact calls asked (own'.trans own) done
      · simp only [pure_ok, Prod.mk.injEq] at done
        refine done.2 ▸ asked.trans (respects_setCode (asked.known known) (by simp [own]) fun r' body' same => ?_)
        simp only [Frame.Code.guard.injEq, reduceCtorEq, and_false, Phase.waiting.injEq, false_or] at same
        obtain ⟨_, _, rfl, _⟩ := same
        exact ⟨asked.known there, own'⟩
      · simp only [pure_ok, Prod.mk.injEq] at done
        exact done.2 ▸ asked
  | waiting body kept =>
    have waits : st.awaited? f = some body := by rw [awaited?, code]
    simp only [State.resumeGuard, check_ok] at done
    obtain ⟨_, _, done⟩ := done
    exact calls released ((housed.awaited waits).2.trans own) done
  | held =>
    simp only [State.resumeGuard, bind_ok, pure_ok, Prod.mk.injEq] at done
    obtain ⟨st₁, gives, _, rfl⟩ := done
    exact released.trans (.of_steady (steady_release gives) (frames_release gives))
  | released => simp [State.resumeGuard] at done

omit [Inhabited V] in
theorem respects_resumeJoin {child : TaskId} {parked : Bool} {error : Option (Error V)} {answer : Answer V}
    (own : home f = t) (known : st.Known f) (done : st.resumeJoin t f child parked error = .ok (answer, st')) :
    Respects home (· ≠ t) st st' := by
  unfold State.resumeJoin at done
  split at done
  · simp only [pure_ok, Prod.mk.injEq] at done
    exact done.2 ▸ .refl st
  · split at done
    · simp only [bind_ok] at done
      obtain ⟨awaited, _, done⟩ := done
      split at done
      · simp only [pure_ok, Prod.mk.injEq] at done
        exact done.2 ▸ .refl st
      · simp at done
    · simp only [bind_ok] at done
      obtain ⟨⟨reply, st₁⟩, waited, done⟩ := done
      have asked : Respects home (· ≠ t) st st₁ :=
        .of_steady (steady_waitFor waited) (Quiet.waitFor waited).frames
      split at done
      · simp only [pure_ok, Prod.mk.injEq] at done
        exact done.2 ▸ asked
      · simp only [pure_ok, Prod.mk.injEq] at done
        exact done.2 ▸ asked.trans (respects_setCode (asked.known known) (by simp [own]) (by simp))
      · simp only [pure_ok, Prod.mk.injEq] at done
        exact done.2 ▸ asked

/-- Resuming a frame concerns no other task's registers and frames. -/
theorem respects_resume {value : V} {error : Option (Error V)} {resumption : Resumption V C}
    (housed : st.Housed home) (own : home f = t) (done : st.resume t f value error = .ok (resumption, st')) :
    Respects home (· ≠ t) st st' := by
  simp only [State.resume, bind_ok, frame_ok] at done
  obtain ⟨frame, found, done⟩ := done
  have code : st.code? f = some frame.code := by rw [code?, found]; rfl
  have known : st.Known f := by simp [Known, found]
  split at done
  · simp only [pure_ok, Prod.mk.injEq] at done
    exact done.2 ▸ .refl st
  · next r phase same =>
    simp only [bind_ok, pure_ok, Prod.mk.injEq] at done
    obtain ⟨⟨answer, st₁⟩, resumed, _, rfl⟩ := done
    exact respects_resumeGuard housed own (same ▸ code) resumed
  · simp only [bind_ok, pure_ok, Prod.mk.injEq] at done
    obtain ⟨⟨answer, st₁⟩, resumed, _, rfl⟩ := done
    exact respects_resumeJoin own known resumed
  · next a message delivered same =>
    have recoded : Respects home (· ≠ t) st (st.setCode f (.message a message true)) :=
      respects_setCode known (by simp [own]) (by simp)
    unfold State.resumeMessage at done
    split at done
    · simp only [pure_ok, Prod.mk.injEq] at done
      exact done.2 ▸ .refl st
    · split at done
      · simp only [pure_ok, Prod.mk.injEq] at done
        exact done.2 ▸ recoded
      · simp only [bind_ok] at done
        obtain ⟨actor, _, may, _, done⟩ := done
        split at done
        · simp only [pure_ok, Prod.mk.injEq] at done
          exact done.2 ▸ recoded.trans (.of_tables rfl rfl)
        · simp at done

end State

/-! ## Threads -/

namespace Activation

/-- The task whose run code belongs to that such activations wait for, if it is not a host's. -/
def runner? (stack : List (Activation V C)) : Option TaskId := (stack.filterMap Activation.run?).head?.map Prod.fst

/-- Whoever is unwound has its run in progress: it jumped, or the code below unwinds its own task. -/
def Anchored : List (Activation V C) → Prop
  | [] => True
  | .cancel t _ _ _ after :: stack => ((∃ rest, after = .trampoline t rest) ∨
      (∃ next, after = .code next) ∧ runner? stack = some t) ∧ Anchored stack
  | _ :: stack => Anchored stack

/-- The frames that are resumed on behalf of a task are there for it. -/
def Housed (home : FrameId → TaskId) (st : State V C) : Activation V C → Prop
  | .frame t f _ => home f = t
  | .cancel t doomed target _ _ => (∀ g ∈ doomed, home g = t) ∧ st.Known target ∧ home target = t
  | _ => True

variable {stack extra : List (Activation V C)} {t : TaskId}

theorem inHand_of_runner (anchored : Anchored stack) (runs : runner? stack = some t) :
    t ∈ stack.flatMap Activation.inHand := by
  induction stack with
  | nil => cases runs
  | cons x stack inductionHypothesis =>
    rw [List.flatMap_cons, List.mem_append]
    cases x with
    | frame u f after =>
      obtain rfl : u = t := by simpa [runner?, run?] using runs
      exact .inl List.mem_cons_self
    | cancel u doomed target value after =>
      obtain rfl : u = t := by simpa [runner?, run?] using runs
      obtain ⟨⟨rest, rfl⟩ | ⟨_, runs⟩, anchored⟩ := anchored
      · exact .inl List.mem_cons_self
      · exact .inr (inductionHypothesis anchored runs)
    | call next => exact .inr (inductionHypothesis anchored runs)
    | opened x => exact .inr (inductionHypothesis anchored runs)

theorem anchored_append_iff (calls : ∀ x ∈ extra, x.run? = none) : Anchored (extra ++ stack) ↔ Anchored stack := by
  induction extra with
  | nil => rfl
  | cons x extra inductionHypothesis =>
    have idle := calls x List.mem_cons_self
    have rest := inductionHypothesis fun x member => calls x (List.mem_cons_of_mem _ member)
    cases x with
    | frame => cases idle
    | cancel => cases idle
    | call => exact rest
    | opened => exact rest

theorem housed_of_idle {st : State V C} (idle : ∀ x ∈ extra, x.run? = none) : ∀ x ∈ extra, x.Housed home st := by
  intro x member
  have idle := idle x member
  cases x with
  | frame => cases idle
  | cancel => cases idle
  | call => trivial
  | opened => trivial

theorem run?_opened (opened : Option ExclusiveId) :
    ∀ x ∈ ((opened.map Activation.opened).toList : List (Activation V C)), x.run? = none := by
  cases opened <;> simp [run?]

theorem Housed.mono {st st' : State V C} {x : Activation V C} (known : ∀ {f}, st.Known f → st'.Known f)
    (housed : x.Housed home st) : x.Housed home st' := by
  cases x with
  | cancel => exact ⟨housed.1, known housed.2.1, housed.2.2⟩
  | frame => exact housed
  | call => trivial
  | opened => trivial

end Activation

namespace Config

open State

variable {c config : Config V C} {st : State V C} {t : TaskId}

/-- What a thread does is with frames that are there for the task it does it for. -/
structure Housed (home : FrameId → TaskId) (c : Config V C) : Prop where
  state : c.state.Housed home
  stack : ∀ x ∈ c.stack, x.Housed home c.state
  anchored : Activation.Anchored c.stack

/-- The code in focus minds its own frames. -/
def Minds (home : FrameId → TaskId) (c : Config V C) : Prop :=
  match c.focus with
  | .code (.ask request _) => c.state.Minds home (Activation.runner? c.stack) request
  | .code (.unwind t _ _ _) => Activation.runner? c.stack = some t
  | _ => True

/-- A task was started, and the thread has it not in hand. -/
def Aloof (c : Config V C) (u : TaskId) : Prop :=
  u ∉ c.agent.inHand ∧ c.state.life u ≠ none ∧ c.state.life u ≠ some .init

/-- The stack of a thread after a step, whose lower part waited before. -/
theorem Housed.of_respects {kept : TaskId → Prop} {st' : State V C} {focus' : Focus V C}
    {below : List (Activation V C)} (extra : List (Activation V C)) (housed : c.Housed home)
    (respects : Respects home kept c.state st') (suffix : below <:+ c.stack) (new : ∀ x ∈ extra, x.Housed home st')
    (anchored : Activation.Anchored below → Activation.Anchored (extra ++ below)) :
    Config.Housed home ⟨st', focus', extra ++ below⟩ where
  state := respects.housed housed.state
  stack x member := by
    rcases List.mem_append.1 member with added | old
    · exact new x added
    · exact (housed.stack x (suffix.subset old)).mono respects.known
  anchored := by
    refine anchored ?_
    obtain ⟨front, same⟩ := suffix
    have whole := housed.anchored
    rw [← same] at whole
    clear same
    induction front with
    | nil => exact whole
    | cons x front inductionHypothesis =>
      refine inductionHypothesis ?_
      cases x with
      | cancel => exact whole.2
      | frame => exact whole
      | call => exact whole
      | opened => exact whole

/-- Where a frame's jump leads to is on the chain of its task, or below the frame. -/
theorem home_topAfterJump {f target g : FrameId} (housed : st.Housed home) (own : home f = t)
    (top : Agent.topAfterJump st t f target = some g) : st.Known g ∧ home g = t := by
  unfold Agent.topAfterJump at top
  split at top
  · exact own ▸ housed.caller top
  · exact housed.top top

/-- Whatever is below a frame is there for the same task. -/
theorem home_chain {g : FrameId} {gs : List FrameId} (housed : st.Housed home) (known : st.Known g)
    (path : (g :: gs).IsChain fun f g => st.caller f = some g) :
    ∀ h ∈ g :: gs, st.Known h ∧ home h = home g := by
  induction gs generalizing g with
  | nil => simpa using known
  | cons k gs inductionHypothesis =>
    obtain ⟨link, path⟩ := List.isChain_cons_cons.1 path
    obtain ⟨there, own⟩ := housed.caller link
    intro h member
    rcases List.mem_cons.1 member with rfl | member
    · exact ⟨known, rfl⟩
    · exact (inductionHypothesis there path h member).imp_right fun same => same.trans own

theorem respects_landAt {target : FrameId} (value : V) (known : st.Known target) (own : home target = t) :
    Respects home (· ≠ t) st (landAt st t target value) := by
  cases found : st.tasks.get? t with
  | some task =>
    refine .of_becomes found (becomes_modifyTask found _) rfl id (by simp) fun g top => .inr ?_
    obtain rfl := Option.some.inj top
    exact ⟨known, own⟩
  | none =>
    refine .of_steady (fun u => ?_) rfl
    rw [landAt, get?_modifyTask]
    split
    · next same => rw [same, found]; exact .none
    · exact Steady.refl st u

variable {focus focus' : Focus V C} {stack below : List (Activation V C)} {st' : State V C}

/-- A step that changes no registers and no frames. -/
theorem housed_of_steady (extra : List (Activation V C)) (housed : Config.Housed home ⟨st, focus, stack⟩)
    (steady : Steady st st') (frames : st'.frames = st.frames) (suffix : below <:+ stack)
    (idle : ∀ x ∈ extra, x.run? = none) :
    Respects home (Config.Aloof ⟨st, focus, stack⟩) st st' ∧ Config.Housed home ⟨st', focus', extra ++ below⟩ := by
  have respects : Respects home (fun _ => True) st st' := .of_steady steady frames
  exact ⟨respects.mono fun _ _ => trivial, housed.of_respects extra respects suffix
    (Activation.housed_of_idle idle) (Activation.anchored_append_iff idle).2⟩

/-- A step that concerns a task that the thread has in hand. -/
theorem housed_of_own (housed : Config.Housed home ⟨st, focus, stack⟩)
    (mine : t ∈ (⟨st, focus, stack⟩ : Config V C).agent.inHand) (respects : Respects home (· ≠ t) st st')
    (suffix : below <:+ stack) :
    Respects home (Config.Aloof ⟨st, focus, stack⟩) st st' ∧ Config.Housed home ⟨st', focus', below⟩ := by
  refine ⟨respects.mono fun u aloof => ?_, housed.of_respects [] respects suffix nofun id⟩
  rintro rfl
  exact aloof.1 mine

variable [Inhabited V]

/-- A frame is resumed on behalf of a task that the thread has in hand. -/
theorem housed_of_resume {st₁ : State V C} {f : FrameId} {value : V} {error : Option (Error V)}
    {resumption : Resumption V C} {activation : Activation V C} (housed : Config.Housed home ⟨st, focus, stack⟩)
    (mine : t ∈ (⟨st, focus, stack⟩ : Config V C).agent.inHand) (before : Respects home (· ≠ t) st st₁)
    (own : home f = t) (resumed : st₁.resume t f value error = .ok (resumption, st')) (suffix : below <:+ stack)
    (fits : activation.Housed home st) (anchored : Activation.Anchored below → Activation.Anchored (activation :: below)) :
    Respects home (Config.Aloof ⟨st, focus, stack⟩) st st' ∧ Config.Housed home ⟨st', .code resumption.program,
      (resumption.opened.map .opened).toList ++ activation :: below⟩ := by
  have respects := before.trans (respects_resume (before.housed housed.state) own resumed)
  refine ⟨respects.mono fun u aloof => ?_, ?_⟩
  · rintro rfl
    exact aloof.1 mine
  · have opened := @Activation.run?_opened V C resumption.opened
    rw [List.append_cons]
    refine housed.of_respects _ respects suffix (fun x member => ?_) fun rest => ?_
    · rcases List.mem_append.1 member with member | member
      · exact Activation.housed_of_idle opened x member
      · obtain rfl := List.mem_singleton.1 member
        exact fits.mono respects.known
    · rw [List.append_assoc]
      exact (Activation.anchored_append_iff opened).2 (anchored rest)

/-- A step that does not unwind by hand. -/
theorem respects_of_does (housed : c.Housed home) (minds : c.Minds home) (does : Does c config) :
    Respects home c.Aloof c.state config.state ∧ config.Housed home := by
  cases does with
  | @serves st st' request next reply stack served =>
    have respects : Respects home (Config.Aloof ⟨st, .code (.ask request next), stack⟩) st st' := by
      refine (respects_serve minds served).mono fun u aloof => ?_
      rintro (runs | unborn | unstarted)
      · exact aloof.1 (Activation.inHand_of_runner housed.anchored runs)
      · exact aloof.2.1 unborn
      · exact aloof.2.2 unstarted
    exact ⟨respects, housed.of_respects [] respects List.suffix_rfl nofun id⟩
  | newFrame =>
    have respects {st : State V C} {label : String} {body : Body V C} :
        Respects home (fun _ => True) st (st.addFrame ⟨label, none, .host body⟩).2 :=
      .addFrame rfl fun other waits => by simp [awaited?_addFrame] at waits
    exact ⟨respects.mono fun _ _ => trivial, housed.of_respects [] respects List.suffix_rfl nofun id⟩
  | newActor => exact housed_of_steady [] housed (.of_tasks rfl) rfl List.suffix_rfl nofun
  | registers => exact housed_of_steady [] housed (.of_tasks rfl) rfl List.suffix_rfl nofun
  | passes detours idle calls =>
    refine housed_of_steady _ housed (.refl _) rfl List.suffix_rfl fun x member => ?_
    have call := calls x member
    cases x with
    | call => rfl
    | _ => exact call.elim
  | rests => exact housed_of_steady [] housed (.refl _) rfl List.suffix_rfl nofun
  | hands => exact housed_of_steady [] housed (.refl _) rfl (List.suffix_cons _ _) nofun
  | @opens st x t inside next stack may =>
    exact housed_of_steady [.opened x, .call fun answer => next (some answer)] housed (.of_tasks rfl) rfl
      List.suffix_rfl (by simp [Activation.run?])
  | closes => exact housed_of_steady [] housed (.of_tasks rfl) rfl (List.suffix_cons _ _) nofun
  | begins detours busy settled taken begun =>
    obtain ⟨s, taken⟩ | ⟨_, rfl⟩ := taken
    · exact housed_of_steady [] housed ((steady_takeReady taken).trans (steady_beginRun begun))
        ((Quiet.beginRun begun).1.frames.trans (Quiet.takeReady taken).frames) List.suffix_rfl nofun
    · exact housed_of_steady [] housed (steady_beginRun begun) (Quiet.beginRun begun).1.frames List.suffix_rfl nofun
  | @resumes st st' t f task after resumption stack found top resumed =>
    have cleared : Respects home (· ≠ t) st
        (st.modifyTask t fun task => { task with value := default, error := none }) := by
      refine .of_becomes found (becomes_modifyTask found _) rfl id (by simp) fun g here => .inl ?_
      rw [State.top, found]
      exact here
    have own := (housed.state.top (show st.top t = some f by rw [State.top, found]; exact top)).2
    exact housed_of_resume housed List.mem_cons_self cleared own resumed List.suffix_rfl own id
  | @suspends st st' t f after stack parked =>
    exact housed_of_steady [] housed ((steady_endRun st t).trans (steady_park parked))
      (Stops.park parked).1.frames (List.suffix_cons _ _) nofun
  | @returns st t f caller answer result task after stack ends found top link =>
    have own : home f = t := housed.stack _ List.mem_cons_self
    obtain ⟨known, own'⟩ := housed.state.caller link
    refine housed_of_own housed (t := t) List.mem_cons_self ?_ (List.suffix_cons _ _)
    refine .of_becomes found (becomes_modifyTask found _) rfl (by cases result <;> exact id) (by simp)
      fun g here => .inr ?_
    obtain rfl : caller = g := by cases result <;> exact Option.some.inj here
    exact ⟨known, own'.trans own⟩
  | @finishes st st' t f answer result task after stack ends found top link finished =>
    refine housed_of_own housed (t := t) List.mem_cons_self ?_ (List.suffix_cons _ _)
    have left := becomes_modifyTask found fun task => { task with top := none }
    have ended := left.trans (becomes_modifyTask left.self fun task => { task with worker := none })
    obtain ⟨_, st₁, woken, retired⟩ := finish_ok ended.self finished
    have closed : Respects home (· ≠ t) st
        (((st.modifyTask t fun task => { task with top := none }).endRun t).closed t result) :=
      .of_becomes found (ended.trans (becomes_closed ended.self)) rfl
        (fun _ => by cases result <;> simp [Task.closed, finalLife]) (by simp) (by simp [Task.closed])
    exact closed.trans (.of_steady ((steady_readyAll woken).trans (steady_retire retired))
      ((Quiet.retire retired).frames.trans (Quiet.readyAll woken).frames))
  | @lands st t f target value task after stack found top =>
    obtain ⟨known, own⟩ := home_topAfterJump housed.state (housed.stack _ List.mem_cons_self) top
    refine housed_of_own housed (t := t) List.mem_cons_self ?_ (List.suffix_cons _ _)
    have moved := becomes_modifyTask found fun task => { task with top := some target }
    refine .trans (.of_becomes found moved rfl id (by simp) fun g here => .inr ?_)
      (respects_landAt value known own)
    obtain rfl := Option.some.inj here
    exact ⟨known, own⟩
  | @leaps st st' t f g target value task rest after resumption stack found top path resumed =>
    obtain ⟨known, own⟩ := home_topAfterJump housed.state (housed.stack _ List.mem_cons_self) top
    have way := home_chain housed.state known path
    have moved : Respects home (· ≠ t) st (st.modifyTask t fun task => { task with top := some g }) := by
      refine .of_becomes found (becomes_modifyTask found _) rfl id (by simp) fun g' here => .inr ?_
      obtain rfl := Option.some.inj here
      exact ⟨known, own⟩
    refine housed_of_resume housed List.mem_cons_self moved own resumed (List.suffix_cons _ _)
      ⟨fun h member => (way h (by simp [member])).2.trans own, ?_⟩ fun rest => ⟨.inl ⟨_, rfl⟩, rest⟩
    exact (way target (by simp)).imp_right fun same => same.trans own
  | @cancels st st' t g target answer value rest after resumption stack resumed =>
    obtain ⟨doomed, known, own⟩ : (∀ h ∈ g :: rest, home h = t) ∧ st.Known target ∧ home target = t :=
      housed.stack _ List.mem_cons_self
    have anchored := housed.anchored.1
    have mine : t ∈ (⟨st, .code (.answer answer), .cancel t (g :: rest) target value after :: stack⟩ :
        Config V C).agent.inHand := Activation.inHand_of_runner housed.anchored rfl
    exact housed_of_resume housed mine (.refl st) (doomed g List.mem_cons_self) resumed (List.suffix_cons _ _)
      ⟨fun h member => doomed h (List.mem_cons_of_mem _ member), known, own⟩ fun rest => ⟨anchored, rest⟩
  | @unwinds st t target answer value after stack =>
    obtain ⟨_, known, own⟩ : (∀ h ∈ [], home h = t) ∧ st.Known target ∧ home target = t :=
      housed.stack _ List.mem_cons_self
    exact housed_of_own housed (Activation.inHand_of_runner housed.anchored rfl) (respects_landAt value known own)
      (List.suffix_cons _ _)

/-- Code unwinds the task that it runs for. -/
theorem respects_of_unwind {target : FrameId} {value : V} {next : Program V C}
    (housed : Config.Housed home ⟨st, .code (.unwind t target value next), stack⟩)
    (runs : Activation.runner? stack = some t)
    (step : (⟨st, .code (.unwind t target value next), stack⟩ : Config V C).step = .ok config) :
    Respects home (Config.Aloof ⟨st, .code (.unwind t target value next), stack⟩) st config.state ∧
      config.Housed home := by
  have mine := Activation.inHand_of_runner housed.anchored runs
  simp only [Config.step, stepCode, unwind, bind_ok, task_ok, check_ok] at step
  obtain ⟨task, found, _, step⟩ := step
  split at step
  · next doomed walk =>
    obtain ⟨first, path⟩ := framesAbove_some walk
    have on (g : FrameId) (gs : List FrameId) (same : doomed ++ [target] = g :: gs) :
        ∀ h ∈ doomed ++ [target], st.Known h ∧ home h = t := by
      rw [same] at first path
      obtain ⟨known, own⟩ := housed.state.top (show st.top t = some g by rw [State.top, found]; exact first.symm)
      rw [same]
      exact fun h member => (home_chain housed.state known path h member).imp_right fun home => home.trans own
    cases doomed with
    | nil =>
      obtain rfl := pure_ok.1 step
      obtain ⟨known, own⟩ := on target [] rfl target (by simp)
      exact housed_of_own housed mine (respects_landAt value known own) List.suffix_rfl
    | cons g rest =>
      obtain ⟨resumption, st', resumed, rfl⟩ := Crew.Sound.resumeFrame_ok
        (show (⟨st, .code (.unwind t target value next), stack⟩ : Config V C).resumeFrame t g default
          (some .cancelled) (.cancel t rest target value (.code next)) = .ok config from step)
      have way := on g (rest ++ [target]) rfl
      exact housed_of_resume housed mine (.refl st) (way g (by simp)).2 resumed List.suffix_rfl
        ⟨fun h member => (way h (by simp [member])).2, way target (by simp)⟩ fun rest => ⟨.inr ⟨⟨_, rfl⟩, runs⟩, rest⟩
  · simp at step

/-- A step of a thread that minds its own frames respects the tasks that it has not in hand. -/
theorem respects_of_step (housed : c.Housed home) (minds : c.Minds home) (step : c.step = .ok config) :
    Respects home c.Aloof c.state config.state ∧ config.Housed home := by
  by_cases wild : ∃ t target value next, c.focus = .code (.unwind t target value next)
  · obtain ⟨st, focus, stack⟩ := c
    obtain ⟨t, target, value, next, rfl⟩ := wild
    exact respects_of_unwind housed minds step
  · refine respects_of_does housed minds (does_of_step (fun t target value next same => ?_) step)
    exact wild ⟨t, target, value, next, same⟩

end Config

end Tasking
