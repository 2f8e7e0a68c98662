import Tasking.Proofs.Mail.Acting

/-! # The state of an actor over a run

A handler that updates the state of its actor and then finishes is a function of the state and the message
(`Handler.Folds`).  `Crew.Run.letters` lists the messages delivered so far, and `Crew.Run.total` is what that function
makes of the first state and of these messages in turn.  Either nobody has the state open, and it is the total, or the
handler of the latest message has it open, and it will be (`Crew.Run.Box`).
-/

namespace Tasking

variable {V C : Type}

/-- What a handler makes of a state and a message: the next state, and how it finishes. -/
abbrev Fold (V : Type) := Context → V → V → V × Except (Error V) V

/-- Whatever else it learns, the code turns one payload into another and finishes with a result. -/
inductive Program.Settles (x : ExclusiveId) : Program V C → V → V → Except (Error V) V → Prop where
  | answer {v : V} {result : Except (Error V) V} : Settles x (.answer (.ofResult result)) v v result
  | reads {next : Exclusive V → Program V C} {v v' : V} {result : Except (Error V) V}
      (settles : ∀ exclusive, exclusive.payload = v → Settles x (next exclusive) v v' result) :
      Settles x (.ask (.exclusive x) next) v v' result
  | writes {next : Unit → Program V C} {payload v v' : V} {result : Except (Error V) V}
      (settles : Settles x (next ()) payload v' result) : Settles x (.ask (.setPayload x payload) next) v v' result
  | asks {request : Request V C} {next : request.Reply → Program V C} {v v' : V} {result : Except (Error V) V}
      (apart : ∀ payload, request ≠ .setPayload x payload) (settles : ∀ reply, Settles x (next reply) v v' result) :
      Settles x (.ask request next) v v' result
  | newFrame {label : String} {body : Body V C} {next : FrameId → Program V C} {v v' : V}
      {result : Except (Error V) V} (settles : ∀ f, Settles x (next f) v v' result) :
      Settles x (.newFrame label body next) v v' result
  | newActor {first : V} {handler : Handler V C} {next : ActorId → Program V C} {v v' : V}
      {result : Except (Error V) V} (settles : ∀ a, Settles x (next a) v v' result) :
      Settles x (.newActor first handler next) v v' result
  | register {g : RegistryId} {name : String} {native : Native V C} {next : Except HostError Symbol → Program V C}
      {v v' : V} {result : Except (Error V) V} (settles : ∀ reply, Settles x (next reply) v v' result) :
      Settles x (.register g name native next) v v' result

/-- A handler that updates the state and then finishes. -/
def Handler.Folds (handler : Handler V C) (fold : Fold V) : Prop :=
  ∀ context x v message, (handler context x message).Settles x v (fold context v message).1 (fold context v message).2

namespace Crew

open State

/-- The message to an actor that is delivered by resuming a frame. -/
def letter? (a : ActorId) (c : Crew V C) : Option (TaskId × FrameId) → Option (Context × V)
  | none => none
  | some (t, b) =>
    match c.state.code? b with
    | some (.message a' message false) => if a' = a then some (⟨t, b⟩, message) else none
    | _ => none

theorem letter?_eq_some_iff {a : ActorId} {c : Crew V C} {label : Option (TaskId × FrameId)} {t : TaskId} {b : FrameId}
    {message : V} : letter? a c label = some (⟨t, b⟩, message) ↔
      label = some (t, b) ∧ c.state.code? b = some (.message a message false) := by
  unfold letter?
  split
  · simp
  · next u f =>
    split
    · next a' m code =>
      split
      · next same =>
        subst same
        simp only [Option.some.injEq, Prod.mk.injEq, Context.mk.injEq]
        constructor
        · rintro ⟨⟨rfl, rfl⟩, rfl⟩
          exact ⟨⟨rfl, rfl⟩, code⟩
        · rintro ⟨⟨rfl, rfl⟩, code'⟩
          simpa [code] using code'
      · next other =>
        simp only [Option.some.injEq, Prod.mk.injEq, reduceCtorEq, false_iff]
        rintro ⟨⟨rfl, rfl⟩, code'⟩
        exact other (show a' = a ∧ m = message by simpa [code] using code').1
    · next plain =>
      simp only [Option.some.injEq, Prod.mk.injEq, reduceCtorEq, false_iff]
      rintro ⟨⟨rfl, rfl⟩, code⟩
      exact plain _ _ code

/-- The actor exists, and no other has its payload. -/
structure Hosts (c : Crew V C) (a : ActorId) (actor : Actor (Handler V C)) : Prop where
  found : c.state.actors.get? a = some actor
  sole : ∀ {a' actor'}, c.state.actors.get? a' = some actor' → actor'.state = actor.state → a' = a

variable [Inhabited V]

theorem Hosts.step {c c' : Crew V C} {a b : ActorId} {actor : Actor (Handler V C)}
    {label : Option (TaskId × FrameId)} (hosts : c.Hosts a actor) (stocked : c.Stocked)
    (step : Step (Discreet b) c label c') : c'.Hosts a actor := by
  obtain ⟨st, before, behind, agent, config, rfl, discreet, steps, _, rfl⟩ | ⟨_, waits⟩ := step.acts_or_waits
  · have does := Config.does_of_step discreet.1.tame steps
    refine ⟨Config.actors_grow does hosts.found, fun {a' actor'} found same => ?_⟩
    obtain kept | ⟨first, handler, next, focus, state⟩ := Config.actors_of_does does
    · exact hosts.sole (kept ▸ found) same
    · rw [state, Config.get?_addActor] at found
      split at found
      · -- The payload of the new actor is new.
        obtain rfl := Option.some.inj found
        have known := stocked.payload hosts.found
        simp [← same, Agent.config, Table.get?_next] at known
      · exact hosts.sole found same
  · obtain ⟨st', agents'⟩ := c'
    obtain ⟨thread, rfl⟩ := waits.state
    exact ⟨hosts.found, hosts.sole⟩

namespace Run

variable {allowed : Crew V C → Agent V C → Prop} (run : Run V C allowed) (a : ActorId) (fold : Fold V) (first : V)

/-- At this step, a frame delivers a message to the actor: it is resumed for the first time. -/
structure DeliversTo (j : Nat) (t : TaskId) (b : FrameId) (message : V) : Prop where
  bound : j < run.length
  resumed : run.resumed j = some (t, b)
  code : (run.crew j).state.code? b = some (.message a message false)

/-- The messages delivered to the actor before a step, with the task and the frame that delivered each. -/
def letters : Nat → List (Context × V)
  | 0 => []
  | k + 1 => letters k ++ ((run.crew k).letter? a (run.resumed k)).toList

/-- What the actor makes of its first state and of the messages delivered before a step, one after the other. -/
def total (k : Nat) : V := (run.letters a k).foldl (fun v letter => (fold letter.1 v letter.2).1) first

variable {run a fold first} {j k : Nat} {t : TaskId} {b : FrameId} {message : V}

theorem total_of_delivers (delivers : run.DeliversTo a k t b message) :
    run.total a fold first (k + 1) = (fold ⟨t, b⟩ (run.total a fold first k) message).1 := by
  have letter := (letter?_eq_some_iff (a := a) (c := run.crew k)).2 ⟨delivers.resumed, delivers.code⟩
  simp [total, letters, letter]

theorem total_of_quiet (quiet : ∀ t b message, run.resumed k = some (t, b) →
    (run.crew k).state.code? b ≠ some (.message a message false)) :
    run.total a fold first (k + 1) = run.total a fold first k := by
  have letter : (run.crew k).letter? a (run.resumed k) = none := by
    by_contra something
    obtain ⟨⟨⟨t, b⟩, message⟩, some'⟩ := Option.ne_none_iff_exists'.1 something
    obtain ⟨resumed, code⟩ := letter?_eq_some_iff.1 some'
    exact quiet t b message resumed code
  simp [total, letters, letter]

/-- The state of the actor: nobody has it open, and it is the total; or the handler of the latest message has it open,
and it will be. -/
inductive Box (run : Run V C allowed) (a : ActorId) (fold : Fold V) (first : V) (actor : Actor (Handler V C))
    (r : ResourceId) (k : Nat) : Prop where
  | closed (found : (run.crew k).state.exclusives.get? actor.state = some ⟨r, run.total a fold first k, false⟩)
      (idle : (run.crew k).openings actor.state = 0)
  | opened {j : Nat} {t : TaskId} {b : FrameId} {message v : V} {p : Program V C} {after : Focus V C}
      {rest : List (Activation V C)} (delivers : run.DeliversTo a j t b message) (earlier : j < k)
      (sum : run.total a fold first k = (fold ⟨t, b⟩ (run.total a fold first j) message).1)
      (found : (run.crew k).state.exclusives.get? actor.state = some ⟨r, v, true⟩)
      (once : (run.crew k).openings actor.state = 1)
      (member : ⟨.code p, .opened actor.state :: .frame t b after :: rest⟩ ∈ (run.crew k).agents)
      (mounted : ∃ g, (run.crew k).state.Mounted r g b)
      (read : (run.crew k).state.code? b = some (.message a message true))
      (settles : p.Settles actor.state v (fold ⟨t, b⟩ (run.total a fold first j) message).1
        (fold ⟨t, b⟩ (run.total a fold first j) message).2)

end Run

omit [Inhabited V] in
theorem openings_split (st : State V C) (before behind : List (Agent V C)) (agent : Agent V C) (x : ExclusiveId) :
    openings x ⟨st, before ++ agent :: behind⟩ =
      agent.openings x + ((before ++ behind).map (Agent.openings x)).sum := by
  simp only [openings, List.map_append, List.map_cons, List.sum_append, List.sum_cons]
  omega

omit [Inhabited V] in
theorem openings_pos {agent : Agent V C} {x : ExclusiveId} (inside : .opened x ∈ agent.stack) :
    0 < agent.openings x := List.countP_pos_iff.2 ⟨_, inside, by simp [Activation.opens]⟩

omit [Inhabited V] in
theorem openings_le {agents : List (Agent V C)} {agent : Agent V C} (member : agent ∈ agents) (x : ExclusiveId) :
    agent.openings x ≤ (agents.map (Agent.openings x)).sum :=
  List.le_sum_of_mem (List.mem_map_of_mem member)

namespace Run

variable {a : ActorId} {run : Run V C (Discreet a)} {fold : Fold V} {first : V} {actor : Actor (Handler V C)}
  {r : ResourceId} {k : Nat} {st : State V C} {before behind : List (Agent V C)} {agent : Agent V C}
  {config : Config V C}

/-! ### The state -/

theorem Box.waits (box : run.Box a fold first actor r k) (idle : run.resumed k = none)
    (waits : Waits (run.crew k) (run.crew (k + 1))) : run.Box a fold first actor r (k + 1) := by
  have total : run.total a fold first (k + 1) = run.total a fold first k := total_of_quiet (by simp [idle])
  obtain ⟨thread, state⟩ := waits.state
  have exclusives : (run.crew (k + 1)).state.exclusives = (run.crew k).state.exclusives := by rw [state]
  cases box with
  | closed found none' => exact .closed (by rw [exclusives, total, found]) (by rw [waits.openings, none'])
  | @opened j t b message v p after rest delivers earlier sum found once member mounted read settles =>
    obtain ⟨g, mounted⟩ := mounted
    have mounted' : (run.crew (k + 1)).state.Mounted r g b := by
      rw [state]
      exact ⟨mounted.link, mounted.uncalled, mounted.unkept, mounted.guard⟩
    have read' : (run.crew (k + 1)).state.code? b = some (.message a message true) := by
      rw [state]
      exact read
    exact .opened delivers (by omega) (total.trans sum) (by rw [exclusives, found]) (by rw [waits.openings, once])
      (waits.stays member (by simp)) ⟨g, mounted'⟩ read' settles

/-- At this step, the handler of the actor is applied to a message and to a state. -/
structure Applies {allowed : Crew V C → Agent V C → Prop} (run : Run V C allowed) (actor : Actor (Handler V C))
    (r : ResourceId) (j : Nat) (t : TaskId) (b : FrameId) (message v : V) : Prop where
  state : (run.crew (j + 1)).state.exclusives.get? actor.state = some ⟨r, v, true⟩
  handler : ∃ after rest, ⟨.code (actor.handler ⟨t, b⟩ actor.state message),
    .opened actor.state :: .frame t b after :: rest⟩ ∈ (run.crew (j + 1)).agents

/-- A message that is delivered finds the state closed, and the handler is applied to it. -/
theorem Box.delivered (box : run.Box a fold first actor r k)
    (hosts : (run.crew k).Hosts a actor) (folds : actor.handler.Folds fold)
    (acts : run.Acts k st before agent behind config) {t : TaskId} {b : FrameId} {message : V}
    (delivers : run.DeliversTo a k t b message) {g : FrameId} (mounted : st.Mounted r g b) {after : Focus V C}
    (focus : agent.focus = .trampoline t after) (well : ∃ task, st.tasks.get? t = some task ∧ task.error = none) :
    run.Box a fold first actor r (k + 1) ∧ run.Applies actor r k t b message (run.total a fold first k) := by
  have code := delivers.code
  have known := hosts.found
  rw [acts.crew] at code known
  obtain ⟨exclusive, behind', free, onwards, state⟩ :=
    acts.opens known code (acts.label.symm.trans delivers.resumed) focus well
  cases box with
  | opened _ _ _ found =>
    rw [acts.crew] at found
    obtain rfl := Option.some.inj (found.symm.trans behind')
    simp at free
  | closed found none' =>
    rw [acts.crew] at found none'
    obtain rfl := Option.some.inj (found.symm.trans behind')
    rw [openings_split] at none'
    have member : ⟨.code (actor.handler ⟨t, b⟩ actor.state message),
        .opened actor.state :: .frame t b after :: agent.stack⟩ ∈ (run.crew (k + 1)).agents := by
      rw [acts.next, onwards]
      exact List.mem_append_right _ List.mem_cons_self
    have now : (run.crew (k + 1)).state.exclusives.get? actor.state =
        some ⟨r, run.total a fold first k, true⟩ := by
      rw [acts.next, state, Config.get?_openPayload, if_pos rfl]
      exact congrArg (Option.map _) behind'
    have frames : config.state.frames = (st.setCode b (.message a message true)).frames := by
      rw [state]
      rfl
    have there := mounted.delivered code frames
    rw [← show (run.crew (k + 1)).state = config.state from congrArg Crew.state acts.next] at there
    refine ⟨.opened delivers (Nat.lt_succ_self k) (total_of_delivers delivers) now ?_ member ⟨g, there.1⟩ there.2
      (folds ⟨t, b⟩ actor.state (run.total a fold first k) message), now, after, agent.stack, member⟩
    rw [acts.next, openings_split, onwards]
    simp only [Agent.openings, List.countP_cons, Activation.opens, decide_true, if_true, Bool.false_eq_true,
      if_false] at none' ⊢
    omega

/-- A step of a handler that has a payload open. -/
inductive Works (x : ExclusiveId) (r : ResourceId) (v' : V) (result : Except (Error V) V)
    (rest : List (Activation V C)) (config : Config V C) : Prop where
  | goes {p : Program V C} {v : V} (agent : config.agent = ⟨.code p, .opened x :: rest⟩)
      (found : config.state.exclusives.get? x = some ⟨r, v, true⟩) (settles : p.Settles x v v' result)
  | ends (agent : config.agent = ⟨.code (.answer (.ofResult result)), rest⟩)
      (found : config.state.exclusives.get? x = some ⟨r, v', false⟩)

/-- Code that settles on a result goes on until it has it. -/
theorem works_of_step {x : ExclusiveId} {p : Program V C} {v v' : V} {result : Except (Error V) V}
    {rest : List (Activation V C)} (settles : p.Settles x v v' result)
    (found : st.exclusives.get? x = some ⟨r, v, true⟩)
    (step : (⟨st, .code p, .opened x :: rest⟩ : Config V C).step = .ok config) : Works x r v' result rest config := by
  -- Any other request leaves the payload.
  have leaves (tame : ∀ t target value next, p ≠ .unwind t target value next) (busy : ∀ answer, p ≠ .answer answer)
      (shut : ∀ t inside next, p ≠ .within x t inside next)
      (apart : ∀ request next, p = .ask request next → ∀ payload, request ≠ .setPayload x payload) :
      config.state.exclusives.get? x = some ⟨r, v, true⟩ := by
    have does := Config.does_of_step (c := ⟨st, .code p, .opened x :: rest⟩)
      (fun t target value next same => tame t target value next (by simpa using same)) step
    cases Config.treats_of_does found does with
    | leaves same => exact same
    | stores focus => exact absurd rfl (apart _ _ (by simpa using focus) _)
    | opens free => simp at free
    | closes focus => exact absurd (by simpa using focus) (busy _)
  cases settles with
  | answer =>
    obtain rfl := pure_ok.1 step
    refine .ends rfl ?_
    rw [closePayload, modifyExclusive, Table.get?_modify_self, found]
    rfl
  | reads settles =>
    simp only [Config.step, Config.stepCode, bind_ok, pure_ok, serve, exclusive_ok] at step
    obtain ⟨⟨reply, st'⟩, ⟨exclusive, found', same⟩, rfl⟩ := step
    obtain ⟨rfl, rfl⟩ := Prod.mk.inj same
    obtain rfl := Option.some.inj (found.symm.trans found')
    exact .goes rfl found (settles _ rfl)
  | writes settles =>
    obtain rfl := pure_ok.1 step
    refine .goes rfl ?_ settles
    change Table.get? (Table.modify _ _ _) _ = _
    rw [Table.get?_modify_self, found]
    rfl
  | asks apart settles =>
    have kept := leaves (by simp) (by simp) (by simp) fun request next same => by
      obtain ⟨rfl, _⟩ := Program.ask.inj same
      exact apart
    simp only [Config.step, Config.stepCode, bind_ok, pure_ok] at step
    obtain ⟨⟨reply, st'⟩, served, rfl⟩ := step
    exact .goes rfl kept (settles reply)
  | newFrame settles =>
    have kept := leaves (by simp) (by simp) (by simp) (by simp)
    obtain rfl := pure_ok.1 step
    exact .goes rfl kept (settles _)
  | newActor settles =>
    have kept := leaves (by simp) (by simp) (by simp) (by simp)
    obtain rfl := pure_ok.1 step
    exact .goes rfl kept (settles _)
  | register settles =>
    have kept := leaves (by simp) (by simp) (by simp) (by simp)
    simp only [Config.step, Config.stepCode, bind_ok, pure_ok] at step
    obtain ⟨⟨reply, st'⟩, registered, rfl⟩ := step
    exact .goes rfl kept (settles reply)

/-- A step that delivers no message leaves the total, and moves on with the handler if that is what it does. -/
theorem Box.quiet (box : run.Box a fold first actor r k) (hosts : (run.crew k).Hosts a actor)
    (acts : run.Acts k st before agent behind config)
    (quiet : ∀ t b message, ¬ run.DeliversTo a k t b message) : run.Box a fold first actor r (k + 1) := by
  have total : run.total a fold first (k + 1) = run.total a fold first k :=
    total_of_quiet fun t b message resumed code => quiet t b message ⟨acts.bound, resumed, code⟩
  have host : st.actors.get? a = some actor := by
    have found := hosts.found
    rwa [acts.crew] at found
  -- Only the handler replaces the payload, and nobody opens it by hand.
  have discreet := acts.permitted.2
  have stores {payload : V} {next : Unit → Program V C}
      (focus : agent.focus = .code (.ask (.setPayload actor.state payload) next)) :
      .opened actor.state ∈ agent.stack := by
    rw [focus] at discreet
    exact discreet.2 actor host rfl
  have opens (cause : (∃ t inside next, agent.focus = .code (.within actor.state t inside next)) ∨
      Config.Delivers actor.state (agent.config st) config) : False := by
    obtain ⟨t, inside, next, focus⟩ |
      @⟨t, b, a', message, actor', after, focus, top, code, found, behind', _, _⟩ := cause
    · rw [focus] at discreet
      exact discreet actor host rfl
    · obtain rfl : a' = a := hosts.sole (by rw [acts.crew]; exact found) behind'
      refine quiet t b message ⟨acts.bound, ?_, by rw [acts.crew]; exact code⟩
      rw [acts.label]
      simp only [Agent.resumed?, show agent.focus = _ from focus, show st.top t = _ from top, Option.map_some]
  have count := openings_split st before behind agent actor.state
  have count' := openings_split config.state before behind config.agent actor.state
  rw [← acts.crew] at count
  rw [← acts.next] at count'
  have inside (member : .opened actor.state ∈ agent.stack) := openings_pos member
  cases box with
  | closed found none' =>
    rw [acts.crew] at found
    have found' : st.exclusives.get? actor.state = some ⟨r, run.total a fold first k, false⟩ := found
    cases Config.treats_of_does found' acts.guarded.does with
    | leaves same kept =>
      refine .closed (by rw [total, acts.next]; exact same) ?_
      rw [show (agent.config st).agent = agent from rfl] at kept
      omega
    | stores focus =>
      have := inside (stores focus)
      omega
    | opens free cause => exact (opens cause).elim
    | closes focus stack =>
      have := inside (show .opened actor.state ∈ agent.stack by rw [show agent.stack = _ from stack]; simp)
      omega
  | @opened j t b message v p after rest delivers earlier sum found once member mounted read settles =>
    obtain ⟨g, mounted⟩ := mounted
    rw [acts.crew] at found mounted read
    have read' : (run.crew (k + 1)).state.code? b = some (.message a message true) := by
      rw [acts.next]
      exact acts.read read
    have found' : st.exclusives.get? actor.state = some ⟨r, v, true⟩ := found
    rw [acts.crew] at member
    have mine : 0 < Agent.openings actor.state
      (⟨.code p, .opened actor.state :: .frame t b after :: rest⟩ : Agent V C) := openings_pos List.mem_cons_self
    by_cases same : agent = ⟨.code p, .opened actor.state :: .frame t b after :: rest⟩
    · -- The handler makes the step.
      subst same
      have works := works_of_step settles found' acts.step
      have only : Agent.openings actor.state
          (⟨.code p, .opened actor.state :: .frame t b after :: rest⟩ : Agent V C) = 1 := by omega
      have below : rest.countP (Activation.opens actor.state) = 0 := by
        simpa [Agent.openings, Activation.opens, List.countP_cons] using only
      cases works with
      | @goes p' v' onwards found settles =>
        have now : config.agent.openings actor.state = 1 := by
          rw [onwards]
          simp [Agent.openings, Activation.opens, below]
        have member' : ⟨.code p', .opened actor.state :: .frame t b after :: rest⟩ ∈ (run.crew (k + 1)).agents := by
          rw [acts.next, onwards]
          exact List.mem_append_right _ List.mem_cons_self
        have mounted' : (run.crew (k + 1)).state.Mounted r g b := by
          rw [acts.next]
          exact acts.mounted_open rfl mounted read
        exact .opened delivers (by omega) (total.trans sum) (by rw [acts.next]; exact found) (by omega) member'
          ⟨g, mounted'⟩ read' settles
      | ends onwards found =>
        have now : config.agent.openings actor.state = 0 := by
          rw [onwards]
          simp [Agent.openings, Activation.opens, below]
        exact .closed (by rw [acts.next, total, sum]; exact found) (by omega)
    · have other : ⟨.code p, .opened actor.state :: .frame t b after :: rest⟩ ∈ before ++ behind := by
        simp only [List.mem_append, List.mem_cons] at member ⊢
        obtain early | here | late := member
        · exact .inl early
        · exact absurd here.symm same
        · exact .inr late
      have most := openings_le other actor.state
      cases Config.treats_of_does found' acts.guarded.does with
      | leaves kept openings =>
        rw [show (agent.config st).agent = agent from rfl] at openings
        have member' : ⟨.code p, .opened actor.state :: .frame t b after :: rest⟩ ∈ (run.crew (k + 1)).agents := by
          rw [acts.next]
          exact mem_original other
        have run' : (t, .inside b) ∈
            (⟨.code p, .opened actor.state :: .frame t b after :: rest⟩ : Agent V C).runs := by
          simp [Agent.runs, Activation.run?]
        have mounted' : (run.crew (k + 1)).state.Mounted r g b := by
          rw [acts.next]
          exact (acts.mounted mounted read (acts.guarded.aside other run') (acts.guarded.uses_inside other run')).1
        exact .opened delivers (by omega) (total.trans sum) (by rw [acts.next]; exact kept) (by omega) member'
          ⟨g, mounted'⟩ read' settles
      | stores focus =>
        have := inside (stores focus)
        omega
      | opens free => simp at free
      | closes focus stack =>
        have := inside (show .opened actor.state ∈ agent.stack by rw [show agent.stack = _ from stack]; simp)
        omega

/-- A thread that has the state open runs the handler of the latest message. -/
theorem Box.only (box : run.Box a fold first actor r k) (member : agent ∈ (run.crew k).agents)
    (inside : .opened actor.state ∈ agent.stack) : ∃ j t b message v p after rest,
      agent = ⟨.code p, .opened actor.state :: .frame t b after :: rest⟩ ∧ run.DeliversTo a j t b message ∧ j < k ∧
        (run.crew k).state.exclusives.get? actor.state = some ⟨r, v, true⟩ ∧
        (∃ g, (run.crew k).state.Mounted r g b) ∧ (run.crew k).state.code? b = some (.message a message true) ∧
        p.Settles actor.state v (fold ⟨t, b⟩ (run.total a fold first j) message).1
          (fold ⟨t, b⟩ (run.total a fold first j) message).2 := by
  have mine := openings_pos inside
  cases box with
  | closed found none' =>
    have most := openings_le member actor.state
    rw [openings] at none'
    omega
  | @opened j t b message v p after rest delivers earlier sum found once member' mounted read settles =>
    refine ⟨j, t, b, message, v, p, after, rest, ?_, delivers, earlier, found, mounted, read, settles⟩
    have theirs : 0 < Agent.openings actor.state
      (⟨.code p, .opened actor.state :: .frame t b after :: rest⟩ : Agent V C) := openings_pos List.mem_cons_self
    obtain ⟨front, back, split⟩ := List.append_of_mem member
    have total := openings_split (run.crew k).state front back agent actor.state
    rw [← split] at total
    by_contra other
    have elsewhere : ⟨.code p, .opened actor.state :: .frame t b after :: rest⟩ ∈ front ++ back := by
      rw [split] at member'
      simp only [List.mem_append, List.mem_cons] at member' ⊢
      obtain early | here | late := member'
      · exact .inl early
      · exact absurd here.symm other
      · exact .inr late
    have most := openings_le elsewhere actor.state
    have same : Crew.openings actor.state ⟨(run.crew k).state, (run.crew k).agents⟩ = 1 := once
    omega

end Run

end Crew

end Tasking
