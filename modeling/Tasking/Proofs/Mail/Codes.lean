import Tasking.Proofs.Calling
import Tasking.Proofs.Mail.Secrets

/-! # What frames are

The code of a frame changes only as the frame is resumed, and new frames are made on request alone
(`Config.code?_of_does`).
-/

namespace Tasking

variable {V C : Type}

namespace State

variable {st st' : State V C} {f g : FrameId} {resumption : Resumption V C}

theorem code?_addFrame (st : State V C) (frame : Frame V (Body V C)) (f : FrameId) :
    (st.addFrame frame).2.code? f = if f = st.frames.next then some frame.code else st.code? f := by
  simp only [State.addFrame, code?, Table.get?_add_eq]
  split <;> rfl

theorem code?_next (st : State V C) : st.code? st.frames.next = none := by
  rw [code?, Table.get?_next]
  rfl

theorem code?_after_next (st : State V C) : st.code? ⟨st.frames.next.number + 1⟩ = none := by
  refine Option.map_eq_none_iff.2 (Option.not_isSome_iff_eq_none.1 fun known => ?_)
  have used := (Table.isSome_get?_iff _ _).1 known
  simp [Table.next, Table.size] at used

theorem code?_addMessage (st : State V C) (a : ActorId) (message : V) (r : ResourceId) (f : FrameId) :
    ((st.addFrame ⟨"actor-message", none, .message a message false⟩).2.addGuard r st.frames.next).2.code? f =
      if f = ⟨st.frames.next.number + 1⟩ then some (.guard r (.start st.frames.next))
      else if f = st.frames.next then some (.message a message false) else st.code? f := by
  have second : (st.addFrame ⟨"actor-message", none, .message a message false⟩).2.frames.next =
      ⟨st.frames.next.number + 1⟩ := by simp [State.addFrame, Table.next, Table.add]
  rw [State.addGuard, code?_addFrame, code?_addFrame, second]

/-- A guard that is to call a frame after some frame was resumed was to call it before. -/
theorem Stirs.awaited (stirs : Stirs st f resumption st') {b : FrameId} (awaits : st'.awaited? g = some b) :
    st.awaited? g = some b := by
  have kept {code : Frame.Code V (Body V C)} (codes : st'.code? = Function.update st.code? f (some code))
      (calls : ∀ r phase, code = .guard r phase → (∃ body, phase = .start body ∨ ∃ value, phase = .waiting body value) →
        st.awaited? f = st'.awaited? f) : st.awaited? g = some b := by
    by_cases same : g = f
    · subst same
      rw [← awaits]
      have now : st'.code? g = some code := by rw [codes, Function.update_self]
      cases code with
      | guard r phase =>
        refine calls r phase rfl ?_
        cases phase with
        | start body => exact ⟨body, .inl rfl⟩
        | waiting body value => exact ⟨body, .inr ⟨value, rfl⟩⟩
        | held | released => simp [awaited?, now] at awaits
      | _ => simp [awaited?, now] at awaits
    · rwa [awaited?, codes, Function.update_of_ne same] at awaits
  cases stirs with
  | runs code frames | passes made final frames =>
    rwa [awaited?, code?_of_frames frames] at awaits
  | delivers code frames | parks code frames => exact kept (codes_of_setCode code frames) (by simp)
  | frees code final frames =>
    refine kept (codes_of_setCode code frames) fun r phase same calls => ?_
    obtain ⟨rfl, rfl⟩ : _ = r ∧ _ = phase := by simpa using same
    simp at calls
  | turns code later codes =>
    refine kept codes fun r phase same calls => ?_
    obtain ⟨rfl, rfl⟩ : _ = r ∧ _ = phase := by simpa using same
    cases later with
    | parked => simp [awaited?, code, codes]
    | refused | granted | woken => simp at calls

/-- What delivers a message after some frame was resumed was to deliver it before, or did. -/
theorem Stirs.message (stirs : Stirs st f resumption st') {a : ActorId} {m : V} {delivered : Bool}
    (code : st'.code? g = some (.message a m delivered)) : ∃ before, st.code? g = some (.message a m before) := by
  have kept {code' : Frame.Code V (Body V C)} (codes : st'.code? = Function.update st.code? f (some code'))
      (apart : g = f → some code' ≠ st'.code? g) : ∃ before, st.code? g = some (.message a m before) := by
    by_cases same : g = f
    · exact absurd (by rw [same, codes, Function.update_self]) (apart same)
    · exact ⟨delivered, by rwa [codes, Function.update_of_ne same] at code⟩
  cases stirs with
  | runs here frames | passes made final frames => exact ⟨delivered, by rwa [code?_of_frames frames] at code⟩
  | delivers here frames =>
    by_cases same : g = f
    · have now : st'.code? g = _ := congrFun (codes_of_setCode here frames) g
      rw [same, Function.update_self, ← same, code] at now
      obtain ⟨rfl, rfl, _⟩ : _ = _ ∧ _ = _ ∧ _ = _ := by simpa using now
      exact ⟨false, same ▸ here⟩
    · rw [codes_of_setCode here frames, Function.update_of_ne same] at code
      exact ⟨delivered, code⟩
  | turns here later codes => exact kept codes fun _ => by simp [code]
  | frees here final frames | parks here frames =>
    exact kept (codes_of_setCode here frames) fun _ => by simp [code]

/-- Frames stay. -/
theorem Stirs.grows (stirs : Stirs st f resumption st') (known : (st.code? g).isSome = true) :
    (st'.code? g).isSome = true := by
  have kept {code : Frame.Code V (Body V C)} (codes : st'.code? = Function.update st.code? f (some code)) :
      (st'.code? g).isSome = true := by
    rw [codes]
    by_cases same : g = f
    · simp [same]
    · rwa [Function.update_of_ne same]
  cases stirs with
  | runs here frames | passes made final frames => rwa [code?_of_frames frames]
  | delivers here frames | parks here frames => exact kept (codes_of_setCode here frames)
  | frees here final frames => exact kept (codes_of_setCode here frames)
  | turns here later codes => exact kept codes

/-- Resuming a frame leaves the code of others. -/
theorem Stirs.code?_ne (stirs : Stirs st f resumption st') (other : g ≠ f) : st'.code? g = st.code? g := by
  have kept {code : Frame.Code V (Body V C)} (codes : st'.code? = Function.update st.code? f (some code)) :
      st'.code? g = st.code? g := by rw [codes, Function.update_of_ne other]
  cases stirs with
  | runs code frames | passes made final frames => exact code?_of_frames frames g
  | delivers code frames | frees code final frames | parks code frames => exact kept (codes_of_setCode code frames)
  | turns code later codes => exact kept codes

theorem keepsChains_unloaded [Inhabited V] (st : State V C) (t : TaskId) : KeepsChains st (st.unloaded t) :=
  ⟨top_modifyTask fun _ => rfl, rfl⟩

end State

namespace Config

open State

variable {c config : Config V C} {t : TaskId} {f : FrameId}

/-- Code creates a frame. -/
inductive Makes (c : Config V C) : FrameId → Frame.Code V (Body V C) → Prop where
  | host {label : String} {body : Body V C} {next : FrameId → Program V C}
      (focus : c.focus = .code (.newFrame label body next)) : Makes c c.state.frames.next (.host body)
  | join {child : TaskId} {next : FrameId → Program V C} (focus : c.focus = .code (.ask (.newJoin child) next)) :
      Makes c c.state.frames.next (.join child false)
  | guard {r : ResourceId} {body : FrameId} {next : FrameId → Program V C}
      (focus : c.focus = .code (.ask (.newGuard r body) next)) : Makes c c.state.frames.next (.guard r (.start body))
  | message {a : ActorId} {message : V} {next : FrameId → Program V C} {actor : Actor (Handler V C)}
      (focus : c.focus = .code (.ask (.newMessage a message) next)) (found : c.state.actors.get? a = some actor) :
      Makes c c.state.frames.next (.message a message false)
  /-- The guard whose body delivers a message. -/
  | keeper {a : ActorId} {message : V} {next : FrameId → Program V C} {actor : Actor (Handler V C)}
      {exclusive : Exclusive V} (focus : c.focus = .code (.ask (.newMessage a message) next))
      (found : c.state.actors.get? a = some actor)
      (behind : c.state.exclusives.get? actor.state = some exclusive) :
      Makes c ⟨c.state.frames.next.number + 1⟩ (.guard exclusive.resource (.start c.state.frames.next))

variable [Inhabited V]

/-- What a step makes of the code of a frame. -/
inductive Recodes (c config : Config V C) (f : FrameId) : Prop where
  | same (code : config.state.code? f = c.state.code? f)
  | resumed {t : TaskId} {resumption : Resumption V C} (label : c.agent.resumed? c.state = some (t, f))
      (stirs : Stirs c.state f resumption config.state)
  | made {code : Frame.Code V (Body V C)} (unused : c.state.code? f = none)
      (new : config.state.code? f = some code) (makes : c.Makes f code)

omit [Inhabited V] in
theorem recodes_addFrame {frame : Frame V (Body V C)} (state : config.state = (c.state.addFrame frame).2)
    (makes : c.Makes c.state.frames.next frame.code) : Recodes c config f := by
  by_cases fresh : f = c.state.frames.next
  · subst fresh
    exact .made c.state.code?_next (by rw [state, code?_addFrame, if_pos rfl]) makes
  · exact .same (by rw [state, code?_addFrame, if_neg fresh])

omit [Inhabited V] in
theorem recodes_of_stirs {st₁ : State V C} {g : FrameId} {resumption : Resumption V C}
    (label : c.agent.resumed? c.state = some (t, g)) (stirs : Stirs st₁ g resumption config.state)
    (frames : st₁.frames = c.state.frames) : Recodes c config f := by
  have stirs := stirs.congr frames
  by_cases same : f = g
  · subst same
    exact .resumed label stirs
  · exact .same (stirs.code?_ne same)

/-- The code of a frame changes only as the frame is resumed, and new frames are made on request. -/
theorem code?_of_does (acyclic : Acyclic c.state.caller) (does : Does c config) (f : FrameId) :
    Recodes c config f := by
  have same (frames : config.state.frames = c.state.frames) : Recodes c config f := .same (code?_of_frames frames f)
  cases does with
  | @serves st st' request next reply stack served =>
    cases request with
    | newGuard r body =>
      obtain rfl : _ = st' := congrArg Prod.snd (pure_ok.1 served)
      exact recodes_addFrame rfl (.guard rfl)
    | newJoin child =>
      obtain rfl : _ = st' := congrArg Prod.snd (pure_ok.1 served)
      exact recodes_addFrame rfl (.join rfl)
    | newMessage a message =>
      simp only [serve, addMessage, bind_ok, actor_ok, exclusive_ok, pure_ok] at served
      obtain ⟨actor, found, exclusive, behind, made⟩ := served
      obtain rfl : _ = st' := congrArg Prod.snd made
      have apart : (⟨st.frames.next.number + 1⟩ : FrameId) ≠ st.frames.next := fun same => by
        simpa using congrArg Id.number same
      have codes := code?_addMessage st a message exclusive.resource f
      by_cases body : f = st.frames.next
      · subst body
        rw [if_neg (Ne.symm apart), if_pos rfl] at codes
        exact .made st.code?_next codes (.message rfl found)
      by_cases keeper : f = ⟨st.frames.next.number + 1⟩
      · subst keeper
        rw [if_pos rfl] at codes
        exact .made st.code?_after_next codes (.keeper rfl found behind)
      · rw [if_neg keeper, if_neg body] at codes
        exact .same codes
    | attach g caller =>
      simp only [serve, bind_ok, pure_ok, Prod.mk.injEq] at served
      obtain ⟨_, attached, _, rfl⟩ := served
      exact .same (congrFun (wears_attach attached).1 f)
    | _ => exact same (frames_serve served rfl)
  | newFrame => exact recodes_addFrame rfl (.host rfl)
  | newActor | registers | passes | rests | hands | opens | closes | returns | lands | unwinds => exact same rfl
  | begins detours busy settled taken begun =>
    have frames := (Quiet.beginRun begun).1.frames
    refine same ?_
    rcases taken with ⟨s, taken⟩ | ⟨_, rfl⟩
    · exact frames.trans (Quiet.takeReady taken).frames
    · exact frames
  | @resumes st st' t g task after resumption stack found top resumed =>
    refine recodes_of_stirs (t := t) ?_ (stirs_of_resume resumed) rfl
    simp [Config.agent, Agent.resumed?, top_of_get? found, top]
  | suspends parked => exact same (Stops.park parked).1.frames
  | finishes ends found top link finished =>
    refine same (Stops.finish ?_ finished).frames
    simp [State.top, State.endRun, get?_modifyTask, found]
  | @leaps st st' t f' g target value task rest after resumption stack found top path resumed =>
    refine recodes_of_stirs (t := t) ?_ (stirs_of_resume resumed) rfl
    simp [Config.agent, Agent.resumed?, top, acyclic.ne_of_path path]
  | cancels resumed => exact recodes_of_stirs rfl (stirs_of_resume resumed) rfl

/-- The code of a frame that is not resumed stays. -/
theorem code?_kept (acyclic : Acyclic c.state.caller) (does : Does c config) {code : Frame.Code V (Body V C)}
    (here : c.state.code? f = some code) (unresumed : ∀ u, c.agent.resumed? c.state ≠ some (u, f)) :
    config.state.code? f = some code := by
  cases code?_of_does acyclic does f with
  | same kept => rw [kept, here]
  | resumed label => exact absurd label (unresumed _)
  | made unused => simp [here] at unused

/-- Frames stay. -/
theorem code?_grows (acyclic : Acyclic c.state.caller) (does : Does c config)
    (known : (c.state.code? f).isSome = true) : (config.state.code? f).isSome = true := by
  cases code?_of_does acyclic does f with
  | same kept => rwa [kept]
  | resumed label stirs => exact stirs.grows known
  | made unused => simp [unused] at known

/-- What delivers a message did before, or was to, or was just made for an actor that exists. -/
theorem message_of_does (acyclic : Acyclic c.state.caller) (does : Does c config) {a : ActorId} {m : V}
    {delivered : Bool} (code : config.state.code? f = some (.message a m delivered)) :
    (∃ before, c.state.code? f = some (.message a m before)) ∨ f = c.state.frames.next ∧
      (c.state.actors.get? a).isSome = true ∧ ∃ next, c.focus = .code (.ask (.newMessage a m) next) := by
  cases code?_of_does acyclic does f with
  | same kept => exact .inl ⟨delivered, kept ▸ code⟩
  | resumed label stirs => exact .inl (stirs.message code)
  | made unused new makes =>
    cases makes with
    | host | join | guard | keeper => simp [new] at code
    | message focus found =>
      obtain ⟨rfl, rfl, rfl⟩ : _ = _ ∧ _ = _ ∧ _ = _ := by simpa [new] using code
      exact .inr ⟨rfl, by rw [found]; rfl, _, focus⟩

/-- A guard that is to call a frame was to call it before, or was just made. -/
theorem awaited_of_does (acyclic : Acyclic c.state.caller) (does : Does c config) {b : FrameId}
    (awaits : config.state.awaited? f = some b) : c.state.awaited? f = some b ∨
      (∃ r next, c.focus = .code (.ask (.newGuard r b) next)) ∨
        b = c.state.frames.next ∧ f = ⟨c.state.frames.next.number + 1⟩ ∧
          ∃ a message next, c.focus = .code (.ask (.newMessage a message) next) := by
  cases code?_of_does acyclic does f with
  | same kept => exact .inl (by rwa [awaited?, kept] at awaits)
  | resumed label stirs => exact .inl (stirs.awaited awaits)
  | made unused new makes =>
    cases makes with
    | host | join | message => simp [awaited?, new] at awaits
    | guard focus =>
      obtain rfl : _ = b := by simpa [awaited?, new] using awaits
      exact .inr (.inl ⟨_, _, focus⟩)
    | keeper focus =>
      obtain rfl : _ = b := by simpa [awaited?, new] using awaits
      exact .inr (.inr ⟨rfl, rfl, _, _, _, focus⟩)

/-- What a frame is resumed with: what its task has for it, or an error because it is cancelled. -/
inductive Given (c : Config V C) (t : TaskId) (f : FrameId) : V → Option (Error V) → State V C → Activation V C →
    List (Activation V C) → Prop where
  | top {task : Task V} {after : Focus V C} (focus : c.focus = .trampoline t after)
      (found : c.state.tasks.get? t = some task) (first : task.top = some f) :
      Given c t f task.value task.error (c.state.unloaded t) (.frame t f after) c.stack
  | cancelled {st : State V C} {answer : Answer V} {doomed : List FrameId} {target : FrameId} {value : V}
      {after : Focus V C} {rest : List (Activation V C)} (focus : c.focus = .code (.answer answer))
      (frames : st.frames = c.state.frames)
      (cause : c.stack = .cancel t (f :: doomed) target value after :: rest ∨
        ∃ h onwards, answer = .jump target value ∧ c.stack = .frame t h onwards :: rest ∧
          (f :: doomed ++ [target]).IsChain fun f g => c.state.caller f = some g) :
      Given c t f default (some .cancelled) st (.cancel t doomed target value after) rest

theorem Given.frames {c : Config V C} {t : TaskId} {value : V} {error : Option (Error V)} {st : State V C}
    {x : Activation V C} {rest : List (Activation V C)} (given : Given c t f value error st x rest) :
    st.frames = c.state.frames := by
  cases given with
  | top => rfl
  | cancelled focus frames => exact frames

theorem Given.resume? {c : Config V C} {t : TaskId} {value : V} {error : Option (Error V)} {st : State V C}
    {x : Activation V C} {rest : List (Activation V C)} (given : Given c t f value error st x rest)
    (label : c.agent.resumed? c.state = some (t, f)) : c.resume? = some ⟨f, value, error⟩ := by
  cases given with
  | top focus found first => simp [Config.resume?, focus, found, first]
  | cancelled focus => simp [Config.resume?, focus, label]

/-- A step that resumes a frame. -/
theorem given_of_does {t : TaskId} (acyclic : Acyclic c.state.caller) (does : Does c config)
    (label : c.agent.resumed? c.state = some (t, f)) :
    ∃ value error st resumption x rest, Given c t f value error st x rest ∧
      st.resume t f value error = .ok (resumption, config.state) ∧
      config.agent = ⟨.code resumption.program, (resumption.opened.map .opened).toList ++ x :: rest⟩ := by
  cases does with
  | @resumes st st' u g task after resumption stack found top resumed =>
    have same : some (u, g) = some (t, f) := by
      rw [← label]
      simp [Config.agent, Agent.resumed?, top_of_get? found, top]
    obtain ⟨rfl, rfl⟩ := Prod.mk.inj (Option.some.inj same)
    exact ⟨_, _, _, resumption, _, _, .top rfl found top, resumed, rfl⟩
  | @leaps st st' u h g target value task rest after resumption stack found top path resumed =>
    have same : some (u, g) = some (t, f) := by
      rw [← label]
      simp [Config.agent, Agent.resumed?, top, acyclic.ne_of_path path]
    obtain ⟨rfl, rfl⟩ := Prod.mk.inj (Option.some.inj same)
    refine ⟨_, _, _, resumption, _, _, ?_, resumed, rfl⟩
    exact .cancelled rfl rfl (.inr ⟨_, _, rfl, rfl, path⟩)
  | cancels resumed =>
    obtain ⟨rfl, rfl⟩ := Prod.mk.inj (Option.some.inj label)
    refine ⟨_, _, _, _, _, _, ?_, resumed, rfl⟩
    exact .cancelled rfl rfl (.inl rfl)
  | @lands st u g target value task after stack found top =>
    simp [Config.agent, Agent.resumed?, top] at label
  | begins detours busy =>
    unfold Config.agent Agent.resumed? at label
    split at label
    · next focus =>
      obtain rfl : _ = _ := focus
      simp [Focus.Detours, Focus.run?] at detours
    · next focus stack =>
      exact absurd focus (busy _)
    · next focus stack =>
      exact absurd focus (busy _)
    · cases label
  | passes detours =>
    unfold Config.agent Agent.resumed? at label
    split at label
    · next focus =>
      obtain rfl : _ = _ := focus
      simp [Focus.Detours, Focus.run?] at detours
    · next focus stack =>
      exact absurd rfl ((detours.2 _ focus).1 _)
    · next focus stack =>
      exact absurd rfl ((detours.2 _ focus).1 _)
    · cases label
  | returns ends | finishes ends =>
    obtain ⟨value, rfl⟩ | ⟨error, rfl⟩ := ends <;> cases label
  | _ => cases label

end Config

end Tasking
