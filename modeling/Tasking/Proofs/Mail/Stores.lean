import Tasking.Proofs.Bypassing

/-! # Payloads and actors

Nothing that happens to tasks changes a payload or an actor.  A step changes a payload only if code replaces it,
opens it, or closes it (`Config.treats_of_does`), and what an actor is never changes.
-/

namespace Tasking

variable {V C : Type}

namespace State

variable {st st' : State V C} {t : TaskId} {f : FrameId} {s : SchedulerId} {r : ResourceId}

/-! ## Requests -/

/-- Only requests for payloads change them. -/
theorem store_serve [Inhabited V] {request : Request V C} {reply : request.Reply}
    (other : match request with
      | .newExclusive _ _ | .setPayload _ _ => False
      | _ => True)
    (done : st.serve request = .ok (reply, st')) : st'.store = st.store := by
  cases request with
  | newExclusive | setPayload => exact other.elim
  | newScheduler settings g =>
    obtain rfl | ⟨workers, rfl⟩ := addScheduler_ok done <;> rfl
  | intern g name =>
    simp only [serve, State.intern, bind_ok] at done
    obtain ⟨registry, _, done⟩ := done
    split at done <;> obtain rfl : _ = st' := congrArg Prod.snd (pure_ok.1 done) <;> rfl
  | newRegistry | closeRegistry =>
    obtain rfl : _ = st' := congrArg Prod.snd (pure_ok.1 done)
    rfl
  | _ => exact (Bypasses.serve trivial done).store

/-! ## Delivering a message -/

variable {a : ActorId} {message value : V} {error : Option (Error V)} {resumption : Resumption V C}

/-- A frame that has yet to deliver its message, and is resumed with a value, runs the handler with the state of the
actor open.  Nobody had it open before, and the task owns it. -/
theorem resume_message (code : st.code? f = some (.message a message false))
    (done : st.resume t f value none = .ok (resumption, st')) :
    ∃ actor exclusive, st.actors.get? a = some actor ∧ st.exclusives.get? actor.state = some exclusive ∧
      exclusive.inUse = false ∧ st.owner exclusive.resource = some t ∧
      resumption = ⟨actor.handler ⟨t, f⟩ actor.state message, some actor.state⟩ ∧
      st' = (st.setCode f (.message a message true)).openPayload actor.state := by
  obtain ⟨frame, found, same⟩ := Option.map_eq_some_iff.1 code
  simp only [State.resume, bind_ok, frame_ok] at done
  obtain ⟨frame', found', done⟩ := done
  obtain rfl := Option.some.inj (found.symm.trans found')
  simp only [same, resumeMessage, Bool.false_eq_true, ↓reduceIte, bind_ok, actor_ok] at done
  obtain ⟨actor, known, may, opens, done⟩ := done
  obtain ⟨exclusive, behind, owns, free⟩ := mayOpen_ok opens
  split at done
  · next allowed =>
    simp only [pure_ok, Prod.mk.injEq] at done
    subst allowed
    exact ⟨actor, exclusive, known, behind, free rfl, owns_iff.1 owns.symm, done.1.symm, done.2.symm⟩
  · simp at done

/-- Resuming a frame opens no payload unless a message is delivered. -/
theorem store_resume (done : st.resume t f value error = .ok (resumption, st')) :
    st'.store = st.store ∧ resumption.opened = none ∨
      error = none ∧ ∃ a message, st.code? f = some (.message a message false) := by
  simp only [State.resume, bind_ok, frame_ok] at done
  obtain ⟨frame, found, done⟩ := done
  split at done
  · simp only [pure_ok, Prod.mk.injEq] at done
    exact .inl ⟨done.2 ▸ rfl, done.1 ▸ rfl⟩
  · simp only [bind_ok, pure_ok, Prod.mk.injEq] at done
    obtain ⟨⟨answer, st₁⟩, resumed, rfl, rfl⟩ := done
    exact .inl ⟨(Bypasses.resumeGuard resumed).store, rfl⟩
  · simp only [bind_ok, pure_ok, Prod.mk.injEq] at done
    obtain ⟨⟨answer, st₁⟩, resumed, rfl, rfl⟩ := done
    exact .inl ⟨(Bypasses.resumeJoin resumed).store, rfl⟩
  · next a message delivered same =>
    unfold State.resumeMessage at done
    split at done
    · simp only [pure_ok, Prod.mk.injEq] at done
      exact .inl ⟨done.2 ▸ rfl, done.1 ▸ rfl⟩
    · next first =>
      split at done
      · simp only [pure_ok, Prod.mk.injEq] at done
        exact .inl ⟨done.2 ▸ rfl, done.1 ▸ rfl⟩
      · obtain rfl : delivered = false := by simpa using first
        refine .inr ⟨rfl, a, message, ?_⟩
        rw [code?, found, Option.map_some, same]

end State

/-- The payload is open as long as this waits for an answer. -/
def Activation.opens (x : ExclusiveId) : Activation V C → Bool
  | .opened y => decide (y = x)
  | _ => false

/-- How often a thread has a payload open. -/
def Agent.openings (x : ExclusiveId) (a : Agent V C) : Nat := a.stack.countP (Activation.opens x)

namespace Config

open State

variable [Inhabited V] {c config : Config V C} {x : ExclusiveId} {exclusive : Exclusive V}

/-- The step resumes a frame that delivers a message. -/
inductive Delivers (x : ExclusiveId) (c config : Config V C) : Prop where
  | mk {t : TaskId} {f : FrameId} {a : ActorId} {message : V} {actor : Actor (Handler V C)} {after : Focus V C}
      (focus : c.focus = .trampoline t after) (top : c.state.top t = some f)
      (code : c.state.code? f = some (.message a message false)) (found : c.state.actors.get? a = some actor)
      (behind : actor.state = x) (runs : config.focus = .code (actor.handler ⟨t, f⟩ x message))
      (stack : config.stack = .opened x :: .frame t f after :: c.stack)

/-- What a step does to a payload. -/
inductive Treats (x : ExclusiveId) (c config : Config V C) (exclusive : Exclusive V) : Prop where
  | leaves (same : config.state.exclusives.get? x = some exclusive)
      (openings : config.agent.openings x = c.agent.openings x)
  | stores {payload : V} {next : Unit → Program V C} (focus : c.focus = .code (.ask (.setPayload x payload) next))
      (onwards : config.agent = ⟨.code (next ()), c.stack⟩)
      (now : config.state.exclusives.get? x = some { exclusive with payload := payload })
  | opens (free : exclusive.inUse = false)
      (cause : (∃ t inside next, c.focus = .code (.within x t inside next)) ∨ Delivers x c config)
      (now : config.state.exclusives.get? x = some { exclusive with inUse := true })
      (openings : config.agent.openings x = c.agent.openings x + 1)
  | closes {answer : Answer V} {rest : List (Activation V C)} (focus : c.focus = .code (.answer answer))
      (stack : c.stack = .opened x :: rest) (onwards : config.agent = ⟨.code (.answer answer), rest⟩)
      (now : config.state.exclusives.get? x = some { exclusive with inUse := false })

omit [Inhabited V] in
theorem Treats.of_store (found : c.state.exclusives.get? x = some exclusive)
    (same : config.state.store = c.state.store) (openings : config.agent.openings x = c.agent.openings x) :
    Treats x c config exclusive :=
  .leaves (by rw [show config.state.exclusives = c.state.exclusives from congrArg Prod.fst same, found]) openings

omit [Inhabited V] in
theorem get?_openPayload (st : State V C) (x y : ExclusiveId) : (st.openPayload y).exclusives.get? x =
    if x = y then (st.exclusives.get? x).map fun exclusive => { exclusive with inUse := true }
    else st.exclusives.get? x := by
  rw [openPayload, modifyExclusive, Table.get?_modify]
  split
  · next same => rw [same]
  · rfl

/-- What a step does to a payload that exists. -/
theorem treats_of_does (found : c.state.exclusives.get? x = some exclusive) (does : Does c config) :
    Treats x c config exclusive := by
  have known : x ≠ c.state.exclusives.next := by
    rintro rfl
    rw [Table.get?_next] at found
    cases found
  have resumed {t : TaskId} {f : FrameId} {value : V} {error : Option (Error V)} {st : State V C}
      {resumption : Resumption V C} {y : Activation V C} {rest : List (Activation V C)}
      (state : st.resume t f value error = .ok (resumption, config.state)) (same : st.store = c.state.store)
      (stack : config.stack = (resumption.opened.map .opened).toList ++ y :: rest)
      (openings : (y :: rest).countP (Activation.opens x) = c.agent.openings x)
      (calm : ¬ (error = none ∧ ∃ a message, st.code? f = some (.message a message false))) :
      Treats x c config exclusive := by
    obtain ⟨kept, closed⟩ := (store_resume state).resolve_right calm
    refine .of_store found (kept.trans same) ?_
    rw [Agent.openings, show config.agent.stack = _ from stack, closed]
    exact openings
  cases does with
  | @serves st st' request next reply stack served =>
    cases request with
    | newExclusive q payload =>
      obtain rfl : _ = st' := congrArg Prod.snd (pure_ok.1 served)
      refine .leaves ?_ rfl
      rw [← found]
      exact Table.get?_add _ _ known
    | setPayload y payload =>
      obtain rfl : _ = st' := congrArg Prod.snd (pure_ok.1 served)
      by_cases same : x = y
      · subst same
        refine .stores rfl rfl ?_
        rw [modifyExclusive, Table.get?_modify_self]
        exact congrArg (Option.map _) found
      · refine .leaves ?_ rfl
        rw [← found]
        exact Table.get?_modify_ne _ _ same
    | _ => exact .of_store found (store_serve trivial served) rfl
  | newActor =>
    refine .leaves ?_ rfl
    rw [← found]
    exact Table.get?_add _ _ known
  | newFrame | registers | rests | lands | returns => exact .of_store found rfl rfl
  | hands => exact .of_store found rfl rfl
  | unwinds => exact .of_store found rfl rfl
  | @passes st focus next stack extra detours idle calls =>
    refine .of_store found rfl ?_
    have none' : extra.countP (Activation.opens x) = 0 := by
      rw [List.countP_eq_zero]
      intro y member
      have call := calls y member
      cases y with
      | call => simp [Activation.opens]
      | _ => exact call.elim
    simp [Agent.openings, Config.agent, List.countP_append, none']
  | @opens st y t inside next stack may =>
    obtain ⟨exclusive', found', _, free⟩ := mayOpen_ok may
    by_cases same : x = y
    · subst same
      obtain rfl : exclusive = exclusive' := Option.some.inj (found.symm.trans found')
      refine .opens (free rfl) (.inl ⟨t, inside, next, rfl⟩) ?_ ?_
      · rw [get?_openPayload, if_pos rfl]
        exact congrArg (Option.map _) found
      · simp [Agent.openings, Config.agent, Activation.opens]
    · refine .leaves ?_ ?_
      · rw [get?_openPayload, if_neg same]
        exact found
      · simp [Agent.openings, Config.agent, Activation.opens, Ne.symm same]
  | @closes st y answer stack =>
    by_cases same : x = y
    · subst same
      refine .closes rfl rfl rfl ?_
      rw [closePayload, modifyExclusive, Table.get?_modify_self]
      exact congrArg (Option.map _) found
    · refine .leaves ?_ ?_
      · rw [← found]
        exact Table.get?_modify_ne _ _ same
      · simp [Agent.openings, Config.agent, Activation.opens, Ne.symm same]
  | begins detours busy settled taken begun =>
    refine .of_store found ((Bypasses.beginRun begun).store.trans ?_) rfl
    obtain ⟨s, taken⟩ | ⟨_, rfl⟩ := taken
    · exact (Bypasses.takeReady taken).store
    · rfl
  | @resumes st st' t f task after resumption stack found' top run =>
    by_cases delivers : task.error = none ∧ ∃ a message, st.code? f = some (.message a message false)
    · obtain ⟨well, a, message, code⟩ := delivers
      rw [well] at run
      have code' : (st.modifyTask t fun task => { task with value := default, error := none }).code? f = _ := code
      obtain ⟨actor, exclusive', known', behind, free, _, rfl, rfl⟩ := resume_message code' run
      by_cases same : x = actor.state
      · subst same
        obtain rfl : exclusive = exclusive' := Option.some.inj (found.symm.trans behind)
        refine .opens free (.inr ?_) ?_ ?_
        · exact .mk rfl ((top_of_get? found').trans top) code known' rfl rfl rfl
        · rw [get?_openPayload, if_pos rfl]
          exact congrArg (Option.map _) found
        · simp [Agent.openings, Config.agent, Activation.opens]
      · refine .leaves ?_ ?_
        · rw [get?_openPayload, if_neg same]
          exact found
        · simp [Agent.openings, Config.agent, Activation.opens, Ne.symm same]
    · exact resumed run rfl rfl rfl delivers
  | leaps found' top path run => exact resumed run rfl rfl rfl (by simp)
  | cancels run => exact resumed run rfl rfl rfl (by simp)
  | suspends parked => exact .of_store found ((Bypasses.park parked).store.trans rfl) rfl
  | finishes ends found' top link finished => exact .of_store found ((Bypasses.finish finished).store.trans rfl) rfl

/-- Actors stay what they are, and new ones are made on request alone. -/
theorem actors_of_does (does : Does c config) : config.state.actors = c.state.actors ∨
    ∃ first handler next, c.focus = .code (.newActor first handler next) ∧
      config.state = (c.state.addActor first handler).2 := by
  have kept {t : TaskId} {f : FrameId} {value : V} {error : Option (Error V)} {st : State V C}
      {resumption : Resumption V C} (run : st.resume t f value error = .ok (resumption, config.state))
      (same : st.actors = c.state.actors) : config.state.actors = c.state.actors := by
    obtain ⟨stored, _⟩ | ⟨rfl, a, message, code⟩ := store_resume run
    · exact (congrArg Prod.snd stored).trans same
    · obtain ⟨_, _, _, _, _, _, _, state⟩ := resume_message code run
      rw [state]
      exact same
  cases does with
  | @serves st st' request next reply stack served =>
    refine .inl ?_
    cases request with
    | newExclusive q payload | setPayload y payload =>
      obtain rfl : _ = st' := congrArg Prod.snd (pure_ok.1 served)
      rfl
    | _ => exact congrArg Prod.snd (store_serve trivial served)
  | newActor => exact .inr ⟨_, _, _, rfl, rfl⟩
  | newFrame | registers | passes | rests | hands | opens | closes | returns | lands | unwinds => exact .inl rfl
  | begins detours busy settled taken begun =>
    refine .inl ?_
    obtain ⟨s, taken⟩ | ⟨_, rfl⟩ := taken
    · exact congrArg Prod.snd ((Bypasses.beginRun begun).store.trans (Bypasses.takeReady taken).store)
    · exact congrArg Prod.snd (Bypasses.beginRun begun).store
  | resumes found top run => exact .inl (kept run rfl)
  | leaps found top path run => exact .inl (kept run rfl)
  | cancels run => exact .inl (kept run rfl)
  | suspends parked => exact .inl (congrArg Prod.snd ((Bypasses.park parked).store.trans rfl))
  | finishes ends found top link finished => exact .inl (congrArg Prod.snd ((Bypasses.finish finished).store.trans rfl))

end Config

end Tasking
