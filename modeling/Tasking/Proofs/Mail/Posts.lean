import Tasking.Proofs.Mail.Boxes

/-! # The way of a message

A frame for a message is a guard on the actor's resource, and behind it is a frame that delivers the message, which
nobody else gets to know.  `Crew.Run.Post` lists where the two can be: the guard keeps the frame, called it, or is
about to be resumed with its result; the frame is about to run the handler, runs it, or has an answer; or all is over,
because the guard was refused or because it let go.  No step of a discreet crew leads anywhere else
(`Crew.Run.Post.acts`).
-/

namespace Tasking

variable {V C : Type}

open Picture

namespace State

variable {st st' : State V C} {b : FrameId}

theorem Stirs.delivered {resumption : Resumption V C} (stirs : Stirs st b resumption st') {a : ActorId}
    {message : V} (code : st.code? b = some (.message a message false)) :
    st'.code? b = some (.message a message true) := by
  cases stirs with
  | runs here | turns here | frees here | parks here => simp [code] at here
  | delivers here frames =>
    obtain ⟨rfl, rfl⟩ : _ = _ ∧ _ = _ := by simpa [code] using here
    rw [codes_of_setCode code frames, Function.update_self]
  | passes made => simp [code] at made

end State

namespace Config

open State

variable [Inhabited V] {st : State V C} {a : ActorId} {message : V} {t : TaskId} {g b : FrameId} (after : Focus V C)
  (rest : List (Activation V C))

/-- A frame that put another one on top jumps there. -/
theorem step_lands (top : st.top t = some b) (known : (st.frames.get? g).isSome = true) (apart : b ≠ g) (v : V) :
    ∃ config, (⟨st, .code (.answer (.jump b v)), .frame t g after :: rest⟩ : Config V C).step = .ok config ∧
      config.agent.resumed? config.state = some (t, b) := by
  obtain ⟨task, found, first⟩ := Option.bind_eq_some_iff.1 top
  obtain ⟨frame, there⟩ := Option.isSome_iff_exists.1 known
  refine ⟨⟨landAt (st.modifyTask t fun task => { task with top := some b }) t b v, .trampoline t after, rest⟩, ?_, ?_⟩
  · simp only [Config.step, stepCode, deliver, takeAnswer, jump, bind_ok, task_ok, frame_ok]
    refine ⟨task, found, frame, there, ?_⟩
    simp [first, apart, pure_ok, goTo, mapState]
  · simp [Config.agent, Agent.resumed?, landAt, State.top, get?_modifyTask, found]

/-- The owner of an actor's resource can deliver a message while nobody has the state open. -/
theorem step_opens {task : Task V} {actor : Actor (Handler V C)} {exclusive : Exclusive V}
    (found : st.tasks.get? t = some task) (top : task.top = some b) (well : task.error = none)
    (code : st.code? b = some (.message a message false)) (known : st.actors.get? a = some actor)
    (behind : st.exclusives.get? actor.state = some exclusive) (owner : st.owner exclusive.resource = some t)
    (free : exclusive.inUse = false) :
    ∃ config, (⟨st, .trampoline t after, rest⟩ : Config V C).step = .ok config := by
  obtain ⟨frame, there, same⟩ := Option.map_eq_some_iff.1 code
  have may : ((st.unloaded t).setCode b (.message a message true)).mayOpen actor.state t = .ok true :=
    mayOpen_owner behind owner free
  refine ⟨⟨((st.unloaded t).setCode b (.message a message true)).openPayload actor.state,
    .code (actor.handler ⟨t, b⟩ actor.state message), .opened actor.state :: .frame t b after :: rest⟩, ?_⟩
  have resumed : (st.unloaded t).resume t b task.value none =
      .ok (⟨actor.handler ⟨t, b⟩ actor.state message, some actor.state⟩,
        ((st.unloaded t).setCode b (.message a message true)).openPayload actor.state) := by
    simp only [State.resume, bind_ok, frame_ok]
    refine ⟨frame, there, ?_⟩
    simp only [same, resumeMessage, Bool.false_eq_true, if_false, bind_ok, actor_ok]
    exact ⟨actor, known, true, may, by simp [pure_ok]⟩
  simp only [Config.step, resumeTop, bind_ok, task_ok]
  refine ⟨task, found, ?_⟩
  simp only [top, well, resumeFrame, mapState, bind_ok]
  exact ⟨_, resumed, rfl⟩

end Config

namespace Crew

open State

namespace Run

variable [Inhabited V] {a : ActorId}

/-- What the handler makes of a message in the end that is delivered at this step. -/
def reply {allowed : Crew V C → Agent V C → Prop} (run : Run V C allowed) (a : ActorId) (fold : Fold V) (first : V)
    (j : Nat) (t : TaskId) (b : FrameId) (message : V) : Except (Error V) V :=
  (fold ⟨t, b⟩ (run.total a fold first j) message).2

/-- A guard let go, after the frame behind it had delivered its message, and finishes as the handler did. -/
structure Returns (run : Run V C (Discreet a)) (fold : Fold V) (first : V) (j i : Nat) (t : TaskId) (g b : FrameId)
    (r : ResourceId) (message : V) : Prop where
  delivers : run.DeliversTo a j t b message
  earlier : j < i
  releases : run.guarded.Releases i t g r
  foreign : (run.crew (i + 1)).state.owner r ≠ some t
  answers : ∃ after rest,
    ⟨.code (.answer (.ofResult (run.reply a fold first j t b message))), .frame t g after :: rest⟩ ∈
      (run.crew (i + 1)).agents

/-- Where a guard and the frame behind it are that delivers a message to the actor. -/
inductive Post (run : Run V C (Discreet a)) (fold : Fold V) (first : V) (x : ExclusiveId) (r : ResourceId)
    (g b : FrameId) (message : V) (k : Nat) (c : Crew V C) : Prop where
  | kept {phase : Phase V} (unread : c.state.code? b = some (.message a message false)) (shuns : c.Shuns b)
      (keeper : ∀ {h}, c.state.awaited? h = some b → h = g) (guard : c.state.code? g = some (.guard r phase))
      (waits : c.state.awaited? g = some b)
  | called {t : TaskId} {v : V} {after : Focus V C} {rest : List (Activation V C)} (mounted : c.state.Mounted r g b)
      (unread : c.state.code? b = some (.message a message false)) (top : c.state.top t = some b)
      (member : ⟨.code (.answer (.jump b v)), .frame t g after :: rest⟩ ∈ c.agents)
  | landed {t : TaskId} {after : Focus V C} {rest : List (Activation V C)} (mounted : c.state.Mounted r g b)
      (unread : c.state.code? b = some (.message a message false)) (top : c.state.top t = some b)
      (well : ∃ task, c.state.tasks.get? t = some task ∧ task.error = none)
      (member : ⟨.trampoline t after, rest⟩ ∈ c.agents)
  | opened {j : Nat} {t : TaskId} {p : Program V C} {after : Focus V C} {rest : List (Activation V C)}
      (mounted : c.state.Mounted r g b) (read : c.state.code? b = some (.message a message true))
      (cleared : ∃ task, c.state.tasks.get? t = some task ∧ task.inputs = (default, none))
      (member : ⟨.code p, .opened x :: .frame t b after :: rest⟩ ∈ c.agents)
      (delivers : run.DeliversTo a j t b message) (earlier : j < k)
  | answered {j : Nat} {t : TaskId} {after : Focus V C} {rest : List (Activation V C)}
      (mounted : c.state.Mounted r g b) (read : c.state.code? b = some (.message a message true))
      (cleared : ∃ task, c.state.tasks.get? t = some task ∧ task.inputs = (default, none))
      (member :
        ⟨.code (.answer (.ofResult (run.reply a fold first j t b message))), .frame t b after :: rest⟩ ∈ c.agents)
      (delivers : run.DeliversTo a j t b message) (earlier : j < k)
  | returned {j : Nat} {t : TaskId} {after : Focus V C} {rest : List (Activation V C)}
      (guard : c.state.code? g = some (.guard r .held)) (read : c.state.code? b = some (.message a message true))
      (top : c.state.top t = some g) (loaded : ∃ task, c.state.tasks.get? t = some task ∧
        Answer.forward task.value task.error = .ofResult (run.reply a fold first j t b message))
      (member : ⟨.trampoline t after, rest⟩ ∈ c.agents) (delivers : run.DeliversTo a j t b message) (earlier : j < k)
  | refused {i : Nat} {t : TaskId} {e : Error V} (unread : c.state.code? b = some (.message a message false))
      (shuns : c.Shuns b) (unkept : ∀ h, c.state.awaited? h ≠ some b) (refuses : run.Refuses i t g b r e)
      (earlier : i < k)
  | done {j i : Nat} {t : TaskId} (read : c.state.code? b = some (.message a message true))
      (returns : run.Returns fold first j i t g b r message) (earlier : i < k)

section Acts

variable {run : Run V C (Discreet a)} {fold : Fold V} {first : V} {x : ExclusiveId} {r : ResourceId} {g b : FrameId}
  {message : V} {k : Nat} {st : State V C} {before behind : List (Agent V C)} {agent other : Agent V C}
  {config : Config V C} {t : TaskId} {s : Stage}

/-! ### What a step does to a message -/

/-- A guard keeps the frame behind it, calls it, or is refused. -/
theorem Post.of_kept (acts : run.Acts k st before agent behind config) {phase : Phase V}
    (unread : st.code? b = some (.message a message false))
    (shuns : (⟨st, before ++ agent :: behind⟩ : Crew V C).Shuns b) (keeper : ∀ {h}, st.awaited? h = some b → h = g)
    (guard : st.code? g = some (.guard r phase)) (waits : st.awaited? g = some b) :
    run.Post fold first x r g b message (k + 1) ⟨config.state, before ++ config.agent :: behind⟩ := by
  have mine : (agent.config st).Shuns b := ⟨shuns.state, shuns.threads agent (by simp)⟩
  have unread' : config.state.code? b = some (.message a message false) :=
    acts.guarded.code unread fun u => mine.unresumed
  have keeper' {h : FrameId} (awaits : config.state.awaited? h = some b) : h = g := by
    obtain old | ⟨r', next, focus⟩ | ⟨rfl, _⟩ := Config.awaited_of_does acts.guarded.acyclic acts.guarded.does awaits
    · exact keeper old
    · exact absurd rfl (acts.permitted.spares unread _ _ focus)
    · exact absurd (st.code?_next.symm.trans unread) (by simp)
  obtain shuns' | ⟨t, f, calls⟩ := acts.guarded.shuns shuns (acts.permitted.spares unread)
  · by_cases label : ∃ u, agent.resumed? st = some (u, g)
    · -- The guard is resumed.
      obtain ⟨u, label⟩ := label
      obtain ⟨value, error, st₁, resumption, y, rest, given, resumed, onwards⟩ :=
        Config.given_of_does acts.guarded.acyclic acts.guarded.does label
      have guard₁ : st₁.code? g = some (.guard r phase) := (code?_of_frames given.frames g).trans guard
      obtain ⟨answer, rfl, heeds⟩ := heeds_resume guard₁ resumed
      cases heeds with
      | calls none' calls =>
        have awaited := calls.awaited
        rw [awaited?, guard₁] at awaited
        rw [awaited?, guard] at waits
        obtain rfl := Option.some.inj (awaited.symm.trans waits)
        exact absurd ((calls.top u).trans (if_pos rfl)) (shuns'.state.top u)
      | @parks body _ none' keeps code =>
        refine .kept unread' shuns' keeper' code ?_
        rw [← waits, awaited?, awaited?, code, guard]
      | @throws body thrown _ cause keeps code same =>
        obtain rfl : body = b := by simpa [awaited?, guard] using waits
        have refuses := acts.refuses label guard given onwards code (e := thrown) (by
          obtain thrown | ⟨asked, refusal, same, _⟩ := cause
          · exact .inl thrown
          · exact .inr ⟨asked, refusal, same⟩)
        refine .refused unread' shuns' (fun h awaits => ?_) refuses (Nat.lt_succ_self k)
        obtain rfl := keeper' awaits
        simp [awaited?, code] at awaits
      | letsGo => simp [awaited?, guard] at waits
    · have guard' := acts.guarded.code guard fun u same => label ⟨u, same⟩
      refine .kept unread' shuns' keeper' guard' ?_
      rw [← waits, awaited?, awaited?, guard', guard]
  · -- The guard calls the frame.
    obtain rfl : f = g := keeper calls.state.awaited
    obtain ⟨r', phase', code, held⟩ := calls.state.guard
    obtain ⟨rfl, rfl⟩ : _ = _ ∧ _ = _ := by simpa using guard.symm.trans code
    obtain ⟨after, _, stack⟩ := calls.focus
    obtain ⟨v, focus⟩ := calls.answers
    have member : ⟨.code (.answer (.jump b v)), .frame t f after :: agent.stack⟩ ∈
        before ++ config.agent :: behind := by
      have same : config.agent = ⟨.code (.answer (.jump b v)), .frame t f after :: agent.stack⟩ := by
        rw [Config.agent, focus, stack]
        rfl
      rw [same]
      exact List.mem_append_right _ List.mem_cons_self
    have top : config.state.top t = some b := (calls.state.top t).trans (if_pos rfl)
    refine .called ⟨?_, fun h link => ?_, fun h awaits => ?_, held⟩ unread' top member
    · exact (calls.state.caller b).trans (if_pos rfl)
    · rw [calls.state.caller] at link
      split at link
      · obtain rfl := Option.some.inj link
        exact absurd (unread.symm.trans guard) (by simp)
      · exact shuns.state.caller h link
    · obtain rfl := keeper' awaits
      simp [awaited?, held] at awaits

/-- The run of a task goes on at the frame that a guard called. -/
theorem Post.of_called (acts : run.Acts k st before agent behind config) {v : V} {after : Focus V C}
    {rest : List (Activation V C)} (mounted : st.Mounted r g b)
    (unread : st.code? b = some (.message a message false)) (top : st.top t = some b)
    (member : ⟨.code (.answer (.jump b v)), .frame t g after :: rest⟩ ∈ before ++ agent :: behind) :
    run.Post fold first x r g b message (k + 1) ⟨config.state, before ++ config.agent :: behind⟩ := by
  obtain same | other := mem_replace (show _ ∈ before ++ (agent.config st).agent :: behind from member)
  · obtain rfl : _ = agent := same
    have apart : b ≠ g := by
      rintro rfl
      exact absurd (unread.symm.trans mounted.guard) (by simp)
    obtain ⟨onwards, frames, task, found, top', inputs⟩ := acts.guarded.lands top apart
    have code := code?_of_frames frames
    have caller := caller_of_frames frames
    have here : (⟨.trampoline t after, rest⟩ : Agent V C) ∈ before ++ config.agent :: behind :=
      mem_of_moved onwards
    refine .landed ⟨?_, ?_, ?_, ?_⟩ ((code b).trans unread) ((top_of_get? found).trans top')
      ⟨task, found, congrArg Prod.snd inputs⟩ here
    · exact (congrFun caller b).trans mounted.link
    · exact caller ▸ mounted.uncalled
    · intro h
      rw [awaited?, code]
      exact mounted.unkept h
    · exact (code g).trans mounted.guard
  · have run' : (t, .inside g) ∈ (⟨.code (.answer (.jump b v)), .frame t g after :: rest⟩ : Agent V C).runs := by
      simp [Agent.runs, Activation.run?]
    have aside := acts.guarded.aside other run'
    obtain ⟨mounted', unread'⟩ := acts.mounted mounted unread aside (acts.guarded.uses_top other run' (by simp) top)
    exact .called mounted' unread' (aside.top top) (mem_original other)

/-- The frame that a guard called delivers its message. -/
theorem Post.of_landed (acts : run.Acts k st before agent behind config) {actor : Actor (Handler V C)}
    (hosts : (⟨st, before ++ agent :: behind⟩ : Crew V C).Hosts a actor) {after : Focus V C}
    {rest : List (Activation V C)} (mounted : st.Mounted r g b)
    (unread : st.code? b = some (.message a message false)) (top : st.top t = some b)
    (well : ∃ task, st.tasks.get? t = some task ∧ task.error = none)
    (member : ⟨.trampoline t after, rest⟩ ∈ before ++ agent :: behind) :
    run.Post fold first actor.state r g b message (k + 1) ⟨config.state, before ++ config.agent :: behind⟩ := by
  obtain same | other := mem_replace (show _ ∈ before ++ (agent.config st).agent :: behind from member)
  · obtain rfl : _ = agent := same
    have label : (⟨.trampoline t after, rest⟩ : Agent V C).resumed? st = some (t, b) := by
      simp [Agent.resumed?, top]
    obtain ⟨exclusive, _, _, onwards, state⟩ := acts.opens hosts.found unread label rfl well
    obtain ⟨task, found, _⟩ := well
    have frames : config.state.frames = (st.setCode b (.message a message true)).frames := by
      rw [state]
      rfl
    obtain ⟨mounted', read⟩ := mounted.delivered unread frames
    have member' : ⟨.code (actor.handler ⟨t, b⟩ actor.state message), .opened actor.state :: .frame t b after :: rest⟩ ∈
        before ++ config.agent :: behind :=
      mem_of_moved onwards
    refine .opened mounted' read ?_ member' ⟨acts.bound, acts.label.trans label, ?_⟩ (Nat.lt_succ_self k)
    · refine ⟨{ task with value := default, error := none }, ?_, rfl⟩
      rw [state]
      exact (get?_modifyTask _ _ _ _).trans (by rw [if_pos rfl, found]; rfl)
    · rw [acts.crew]
      exact unread
  · have run' : (t, .next) ∈ (⟨.trampoline t after, rest⟩ : Agent V C).runs := by
      simp [Agent.runs, Focus.run?]
    have aside := acts.guarded.aside other run'
    obtain ⟨mounted', unread'⟩ := acts.mounted mounted unread aside (acts.guarded.uses_top other run' (by simp) top)
    exact .landed mounted' unread' (aside.top top) (aside.inputs (·.2 = none) well) (mem_original other)

theorem read_step (bound : k < run.length)
    (code : (run.crew k).state.code? b = some (.message a message true)) :
    (run.crew (k + 1)).state.code? b = some (.message a message true) := by
  obtain ⟨st, before, agent, behind, config, acts⟩ | ⟨_, waits⟩ := run.acts_or_waits bound
  · rw [acts.crew] at code
    rw [acts.next]
    exact acts.read code
  · obtain ⟨thread, state⟩ := waits.state
    rw [state]
    exact code

/-- A message that was delivered counts as delivered from then on. -/
theorem DeliversTo.read_later {j : Nat} (delivers : run.DeliversTo a j t b message) (later : j < k)
    (bound : k ≤ run.length) : (run.crew k).state.code? b = some (.message a message true) := by
  induction k, later using Nat.le_induction with
  | base =>
    obtain ⟨st, before, agent, behind, config, acts⟩ | ⟨idle, _⟩ := run.acts_or_waits delivers.bound
    · have code := delivers.code
      have label := acts.label.symm.trans delivers.resumed
      rw [acts.crew] at code
      rw [acts.next]
      cases Config.code?_of_does acts.guarded.acyclic acts.guarded.does b with
      | resumed _ stirs => exact stirs.delivered code
      | made unused => exact absurd (unused.symm.trans code) (by simp)
      | same kept =>
        obtain ⟨value, error, st₁, resumption, y, rest, given, resumed, onwards⟩ :=
          Config.given_of_does acts.guarded.acyclic acts.guarded.does label
        exact (stirs_of_resume resumed).delivered ((code?_of_frames given.frames b).trans code)
    · exact absurd (idle.symm.trans delivers.resumed) (by simp)
  | succ k later inductionHypothesis => exact read_step (by omega) (inductionHypothesis (by omega))

/-- A message is delivered once at most. -/
theorem DeliversTo.unique {j j' : Nat} {t' : TaskId} {message' : V} (first : run.DeliversTo a j t b message)
    (second : run.DeliversTo a j' t' b message') : j = j' := by
  wlog before : j < j' generalizing j j' t t' message message'
  · obtain same | later := Nat.eq_or_lt_of_not_lt before
    · exact same
    · exact (this second first later).symm
  exact absurd ((first.read_later before second.bound.le).symm.trans second.code) (by simp)

/-- The handler goes on, or it has an answer. -/
theorem Post.of_opened (acts : run.Acts k st before agent behind config) {actor : Actor (Handler V C)}
    (box : run.Box a fold first actor r k) {j : Nat} {p : Program V C} {after : Focus V C}
    {rest : List (Activation V C)} (mounted : st.Mounted r g b) (read : st.code? b = some (.message a message true))
    (cleared : ∃ task, st.tasks.get? t = some task ∧ task.inputs = (default, none))
    (member : ⟨.code p, .opened actor.state :: .frame t b after :: rest⟩ ∈ before ++ agent :: behind)
    (delivers : run.DeliversTo a j t b message) (earlier : j < k) :
    run.Post fold first actor.state r g b message (k + 1) ⟨config.state, before ++ config.agent :: behind⟩ := by
  have read' := acts.read read
  have run' : (t, .inside b) ∈
      (⟨.code p, .opened actor.state :: .frame t b after :: rest⟩ : Agent V C).runs := by
    simp [Agent.runs, Activation.run?]
  obtain same | other := mem_replace (show _ ∈ before ++ (agent.config st).agent :: behind from member)
  · obtain rfl : _ = agent := same
    have among : ⟨.code p, .opened actor.state :: .frame t b after :: rest⟩ ∈ (run.crew k).agents := by
      rw [acts.crew]
      exact member
    obtain ⟨j', t', b', message', v, p', after', rest', same, delivers', earlier', behind', _, code, settles⟩ :=
      box.only among List.mem_cons_self
    obtain ⟨rfl, ⟨rfl, rfl, rfl⟩, rfl⟩ : p = p' ∧ (t = t' ∧ b = b' ∧ after = after') ∧ rest = rest' := by
      simpa using same
    -- It is the same message.
    rw [acts.crew] at code
    obtain rfl : message = message' := by simpa using read.symm.trans code
    have mounted' : config.state.Mounted r g b := acts.mounted_open rfl mounted read
    obtain ⟨task, found, inputs⟩ := cleared
    obtain ⟨task', found', inputs'⟩ := (Config.retains_of_open (fun request next focus =>
      acts.permitted.1.unmoving request next (congrArg Focus.code focus)) acts.guarded.does).task found
    have cleared' : ∃ task, config.state.tasks.get? t = some task ∧ task.inputs = (default, none) :=
      ⟨task', found', (inputs' trivial).trans inputs⟩
    have opened : st.exclusives.get? actor.state = some ⟨r, v, true⟩ := by
      rw [acts.crew] at behind'
      exact behind'
    have now {agent' : Agent V C} (same : config.agent = agent') : agent' ∈ before ++ config.agent :: behind := by
      rw [same]
      exact List.mem_append_right _ List.mem_cons_self
    cases works_of_step settles opened acts.step with
    | goes onwards =>
      exact .opened mounted' read' cleared' (now onwards) delivers' (Nat.lt_succ_of_lt earlier')
    | ends onwards =>
      exact .answered mounted' read' cleared' (now onwards) delivers' (Nat.lt_succ_of_lt earlier')
  · have aside := acts.guarded.aside other run'
    obtain ⟨mounted', _⟩ := acts.mounted mounted read aside (acts.guarded.uses_inside other run')
    exact .opened mounted' read' (aside.inputs (· = (default, none)) cleared) (mem_original other) delivers (by omega)

/-- The frame finishes as the handler did. -/
theorem Post.of_answered (acts : run.Acts k st before agent behind config) {j : Nat} {after : Focus V C}
    {rest : List (Activation V C)} (mounted : st.Mounted r g b) (read : st.code? b = some (.message a message true))
    (cleared : ∃ task, st.tasks.get? t = some task ∧ task.inputs = (default, none))
    (member : ⟨.code (.answer (.ofResult (run.reply a fold first j t b message))), .frame t b after :: rest⟩ ∈
      before ++ agent :: behind) (delivers : run.DeliversTo a j t b message) (earlier : j < k) :
    run.Post fold first x r g b message (k + 1) ⟨config.state, before ++ config.agent :: behind⟩ := by
  have read' := acts.read read
  have run' : (t, .inside b) ∈ (⟨.code (.answer (.ofResult (run.reply a fold first j t b message))),
      .frame t b after :: rest⟩ : Agent V C).runs := by
    simp [Agent.runs, Activation.run?]
  obtain same | other := mem_replace (show _ ∈ before ++ (agent.config st).agent :: behind from member)
  · obtain rfl : _ = agent := same
    obtain ⟨onwards, frames, top, loaded⟩ := acts.guarded.hands_back mounted.link cleared
    have here : (⟨.trampoline t after, rest⟩ : Agent V C) ∈ before ++ config.agent :: behind :=
      mem_of_moved onwards
    exact .returned ((code?_of_frames frames g).trans mounted.guard) read' top loaded here delivers (by omega)
  · have aside := acts.guarded.aside other run'
    obtain ⟨mounted', _⟩ := acts.mounted mounted read aside (acts.guarded.uses_inside other run')
    exact .answered mounted' read' (aside.inputs (· = (default, none)) cleared) (mem_original other) delivers (by omega)

/-- The guard lets go. -/
theorem Post.of_returned (acts : run.Acts k st before agent behind config) {j : Nat} {after : Focus V C}
    {rest : List (Activation V C)} (guard : st.code? g = some (.guard r .held))
    (read : st.code? b = some (.message a message true)) (top : st.top t = some g)
    (loaded : ∃ task, st.tasks.get? t = some task ∧
      Answer.forward task.value task.error = .ofResult (run.reply a fold first j t b message))
    (member : ⟨.trampoline t after, rest⟩ ∈ before ++ agent :: behind) (delivers : run.DeliversTo a j t b message)
    (earlier : j < k) :
    run.Post fold first x r g b message (k + 1) ⟨config.state, before ++ config.agent :: behind⟩ := by
  have read' := acts.read read
  obtain same | other := mem_replace (show _ ∈ before ++ (agent.config st).agent :: behind from member)
  · obtain rfl : _ = agent := same
    obtain ⟨task, found, answers⟩ := loaded
    obtain ⟨releases, foreign, onwards⟩ := acts.guarded.lets_go guard top found
    refine .done read' ⟨delivers, earlier, releases, foreign, after, rest, ?_⟩ (Nat.lt_succ_self k)
    rw [acts.next, onwards, ← answers]
    exact List.mem_append_right _ List.mem_cons_self
  · have run' : (t, .next) ∈ (⟨.trampoline t after, rest⟩ : Agent V C).runs := by
      simp [Agent.runs, Focus.run?]
    have aside := acts.guarded.aside other run'
    have uses := acts.guarded.uses_top other run' (by simp) top
    exact .returned (acts.guarded.code guard (aside.unresumed uses)) read' (aside.top top)
      (aside.inputs (fun inputs => Answer.forward inputs.1 inputs.2 = _) loaded) (mem_original other) delivers (by omega)

/-- A frame that was refused stays behind. -/
theorem Post.of_refused (acts : run.Acts k st before agent behind config) {i : Nat} {e : Error V}
    (unread : st.code? b = some (.message a message false))
    (shuns : (⟨st, before ++ agent :: behind⟩ : Crew V C).Shuns b) (unkept : ∀ h, st.awaited? h ≠ some b)
    (refuses : run.Refuses i t g b r e) (earlier : i < k) :
    run.Post fold first x r g b message (k + 1) ⟨config.state, before ++ config.agent :: behind⟩ := by
  have mine : (agent.config st).Shuns b := ⟨shuns.state, shuns.threads agent (by simp)⟩
  obtain shuns' | ⟨t, f, calls⟩ := acts.guarded.shuns shuns (acts.permitted.spares unread)
  · refine .refused (acts.guarded.code unread fun u => mine.unresumed) shuns' (fun h awaits => ?_) refuses (by omega)
    obtain old | ⟨r', next, focus⟩ | ⟨rfl, _⟩ := Config.awaited_of_does acts.guarded.acyclic acts.guarded.does awaits
    · exact unkept h old
    · exact acts.permitted.spares unread _ _ focus rfl
    · exact absurd (st.code?_next.symm.trans unread) (by simp)
  · exact absurd calls.state.awaited (unkept f)

/-- A step takes a message on its way, or leaves it where it is. -/
theorem Post.acts (acts : run.Acts k st before agent behind config) {actor : Actor (Handler V C)}
    (hosts : (⟨st, before ++ agent :: behind⟩ : Crew V C).Hosts a actor) (box : run.Box a fold first actor r k)
    (post : run.Post fold first actor.state r g b message k ⟨st, before ++ agent :: behind⟩) :
    run.Post fold first actor.state r g b message (k + 1) ⟨config.state, before ++ config.agent :: behind⟩ := by
  cases post with
  | kept unread shuns keeper guard waits => exact .of_kept acts unread shuns keeper guard waits
  | called mounted unread top member => exact .of_called acts mounted unread top member
  | landed mounted unread top well member => exact .of_landed acts hosts mounted unread top well member
  | opened mounted read cleared member delivers earlier =>
    exact .of_opened acts box mounted read cleared member delivers earlier
  | answered mounted read cleared member delivers earlier =>
    exact .of_answered acts mounted read cleared member delivers earlier
  | returned guard read top loaded member delivers earlier =>
    exact .of_returned acts guard read top loaded member delivers earlier
  | refused unread shuns unkept refuses earlier => exact .of_refused acts unread shuns unkept refuses earlier
  | done read returns earlier => exact .done (acts.read read) returns (by omega)

/-- A message stays where it is while nobody makes a step. -/
theorem Post.waits {c c' : Crew V C} (waits : Waits c c') (post : run.Post fold first x r g b message k c) :
    run.Post fold first x r g b message (k + 1) c' := by
  have stays {p : Program V C} {stack : List (Activation V C)} (member : ⟨.code p, stack⟩ ∈ c.agents) :=
    waits.stays member (by simp)
  have stays' {u : TaskId} {after : Focus V C} {stack : List (Activation V C)}
      (member : ⟨.trampoline u after, stack⟩ ∈ c.agents) := waits.stays member (by simp)
  have shunned := waits.shuns (b := b)
  obtain ⟨st', agents'⟩ := c'
  obtain ⟨thread, rfl⟩ := waits.state
  cases post with
  | kept unread shuns keeper guard waits' => exact .kept unread (shunned shuns) keeper guard waits'
  | called mounted unread top member =>
    exact .called ⟨mounted.link, mounted.uncalled, mounted.unkept, mounted.guard⟩ unread top (stays member)
  | landed mounted unread top well member =>
    exact .landed ⟨mounted.link, mounted.uncalled, mounted.unkept, mounted.guard⟩ unread top well (stays' member)
  | opened mounted read cleared member delivers earlier =>
    exact .opened ⟨mounted.link, mounted.uncalled, mounted.unkept, mounted.guard⟩ read cleared (stays member) delivers
      (by omega)
  | answered mounted read cleared member delivers earlier =>
    exact .answered ⟨mounted.link, mounted.uncalled, mounted.unkept, mounted.guard⟩ read cleared (stays member) delivers
      (by omega)
  | returned guard read top loaded member delivers earlier =>
    exact .returned guard read top loaded (stays' member) delivers (by omega)
  | refused unread shuns unkept refuses earlier => exact .refused unread (shunned shuns) unkept refuses (by omega)
  | done read returns earlier => exact .done read returns (by omega)

/-- A frame is resumed to deliver its message only after its guard called it, and with a value. -/
theorem Post.fresh (acts : run.Acts k st before agent behind config)
    (post : run.Post fold first x r g b message k ⟨st, before ++ agent :: behind⟩)
    (unread : st.code? b = some (.message a message false)) (label : agent.resumed? st = some (t, b)) :
    st.Mounted r g b ∧ st.top t = some b ∧ (∃ after, agent.focus = .trampoline t after) ∧
      ∃ task, st.tasks.get? t = some task ∧ task.error = none := by
  have unshunned (shuns : (⟨st, before ++ agent :: behind⟩ : Crew V C).Shuns b) : False := by
    have mine : (agent.config st).Shuns b := ⟨shuns.state, shuns.threads agent (by simp)⟩
    exact mine.unresumed label
  cases post with
  | kept _ shuns => exact (unshunned shuns).elim
  | refused _ shuns => exact (unshunned shuns).elim
  | opened _ read | answered _ read | returned _ read | done read =>
    exact absurd (read.symm.trans unread) (by simp)
  | @called u v after rest mounted _ top member =>
    obtain same | other := mem_replace (show _ ∈ before ++ (agent.config st).agent :: behind from member)
    · obtain rfl : _ = agent := same
      have apart : b ≠ g := by
        rintro rfl
        exact absurd (unread.symm.trans mounted.guard) (by simp)
      simp [Agent.resumed?, Agent.topAfterJump, top, apart] at label
    · have run' : (u, .inside g) ∈
          (⟨.code (.answer (.jump b v)), .frame u g after :: rest⟩ : Agent V C).runs := by
        simp [Agent.runs, Activation.run?]
      exact absurd label ((acts.guarded.aside other run').unresumed (acts.guarded.uses_top other run' (by simp) top) t)
  | @landed u after rest mounted _ top well member =>
    obtain same | other := mem_replace (show _ ∈ before ++ (agent.config st).agent :: behind from member)
    · obtain rfl : _ = agent := same
      obtain rfl : u = t := by simpa [Agent.resumed?, top] using label
      exact ⟨mounted, top, ⟨after, rfl⟩, well⟩
    · have run' : (u, .next) ∈ (⟨.trampoline u after, rest⟩ : Agent V C).runs := by
        simp [Agent.runs, Focus.run?]
      exact absurd label ((acts.guarded.aside other run').unresumed (acts.guarded.uses_top other run' (by simp) top) t)

end Acts

end Run

end Crew

end Tasking
