import Tasking.Proofs.Intact.Ripe
import Tasking.Proofs.Mail.Acting

/-! # Messages that are still to be delivered

No careful program puts a frame with a message on a chain.  Until the frame is resumed, only guards of the
actor's resource are to call it, nothing returns to it, and if it is on top of a chain, then it was called by
such a guard (`Crew.Seals`).  So the task that delivers the message owns the actor.
-/

namespace Tasking

open Picture

variable {V C : Type}

/-- A frame is a guard of the resource of an actor. -/
def State.Keeper (st : State V C) (g : FrameId) (a : ActorId) : Prop :=
  ∃ actor exclusive phase, st.actors.get? a = some actor ∧ st.exclusives.get? actor.state = some exclusive ∧
    st.code? g = some (.guard exclusive.resource phase)

namespace Config

open State

variable [Inhabited V] {c config : Config V C} {g : FrameId}

/-- A guard is one of its resource for good. -/
theorem guard_of_does (acyclic : Acyclic c.state.caller) (does : Does c config) {r : ResourceId} {phase : Phase V}
    (code : c.state.code? g = some (.guard r phase)) : ∃ phase', config.state.code? g = some (.guard r phase') := by
  cases code?_of_does acyclic does g with
  | same kept => exact ⟨phase, kept.trans code⟩
  | resumed label stirs =>
    cases stirs with
    | runs _ frames | passes _ _ frames => exact ⟨phase, (code?_of_frames frames g).trans code⟩
    | delivers here | parks here => cases here.symm.trans code
    | turns here _ codes =>
      cases here.symm.trans code
      exact ⟨_, by rw [codes, Function.update_self]⟩
    | frees here _ frames =>
      cases here.symm.trans code
      exact ⟨_, by rw [Stirs.codes_of_setCode here frames, Function.update_self]⟩
  | made unused => cases unused.symm.trans code

/-- A payload stays behind its resource. -/
theorem resource_of_does {x : ExclusiveId} {exclusive : Exclusive V}
    (found : c.state.exclusives.get? x = some exclusive) (does : Does c config) :
    ∃ exclusive', config.state.exclusives.get? x = some exclusive' ∧ exclusive'.resource = exclusive.resource := by
  cases treats_of_does found does with
  | leaves now => exact ⟨exclusive, now, rfl⟩
  | stores _ _ now | opens _ _ now | closes _ _ _ now => exact ⟨_, now, rfl⟩

theorem keeper_of_does (acyclic : Acyclic c.state.caller) (does : Does c config) {a : ActorId}
    (keeper : c.state.Keeper g a) : config.state.Keeper g a := by
  obtain ⟨actor, exclusive, phase, known, behind, code⟩ := keeper
  obtain ⟨exclusive', behind', same⟩ := resource_of_does behind does
  obtain ⟨phase', code'⟩ := guard_of_does acyclic does code
  exact ⟨actor, exclusive', phase', actors_grow does known, behind', same ▸ code'⟩

end Config

namespace Crew

open State

variable {c c' : Crew V C} {b : Agent V C} {config : Config V C} {m g : FrameId} {a : ActorId}

/-- Only a guard of the actor's resource has to do with a frame. -/
structure Seals (c : Crew V C) (m : FrameId) (a : ActorId) : Prop where
  uncalled : ∀ h, c.state.caller h ≠ some m
  aside : ∀ b ∈ c.agents, ∀ y ∈ b.stack, ¬ y.Mentions m
  awaited : ∀ {g}, c.state.awaited? g = some m → c.state.Keeper g a
  called : ∀ {t}, c.state.top t = some m → ∃ g, c.state.caller m = some g ∧ c.state.Keeper g a

/-- Guards are to call frames that exist, and only guards of an actor have to do with messages to it. -/
structure Sealed (c : Crew V C) : Prop where
  kept : ∀ {g b}, c.state.awaited? g = some b → c.picture.known b
  seals : ∀ {m a}, c.state.Undelivered m a → c.Seals m a

theorem Lulls.sealed (lulls : c.Lulls c') (safe : c.Sealed) : c'.Sealed := by
  obtain ⟨thread, state⟩ := lulls.state
  refine ⟨?_, fun {m a} undelivered => ?_⟩
  · rw [state, lulls.picture]
    exact safe.kept
  · rw [state] at undelivered
    have seals := safe.seals undelivered
    refine ⟨?_, fun b member y inside => ?_, ?_, ?_⟩
    · rw [state]
      exact seals.uncalled
    · obtain old | ⟨_, empty | ⟨focus, _, _, old⟩⟩ := lulls.back member
      · exact seals.aside b old y inside
      · simp [empty] at inside
      · exact seals.aside _ old y inside
    · rw [state]
      exact seals.awaited
    · rw [state]
      exact seals.called

theorem sealed_initial (parallelism : Nat) : (initial parallelism : Crew V C).Sealed := by
  refine ⟨fun awaits => ?_, fun undelivered => ?_⟩
  · simp [initial, State.initial, awaited?, code?] at awaits
  · obtain ⟨message, code⟩ := undelivered
    simp [initial, State.initial, code?] at code

/-- Nobody has to do with a frame that does not exist yet. -/
theorem Sealed.seals_unknown (safe : c.Sealed) (sound : c.Sound) (unknown : c.state.code? m = none) : c.Seals m a := by
  have absent (known : c.picture.known m) : False := code?_of_known known unknown
  refine ⟨fun h link => absent (sound.warded.caller_known link), fun b member y inside mentions => ?_,
    fun awaits => (absent (safe.kept awaits)).elim, fun top => (absent (sound.warded.top_known top)).elim⟩
  cases y with
  | frame t f after =>
    obtain rfl : f = m := mentions
    exact absent (sound.warded.inside (sound.stage_of_run member (Agent.mem_runs inside))).1
  | cancel t doomed target value after =>
    have stage : c.picture.stage t = some (.unwinding doomed target) :=
      sound.stage_of_run member (List.mem_append_right _ (List.mem_filterMap.2 ⟨_, inside, rfl⟩))
    have on : c.picture.OnChain t m := onChain_of_mem_path sound.warded.toWoven stage mentions
    exact absent (sound.known_of_onChain on)
  | call | opened => exact mentions

/-- A task that goes on at a frame with a message owns the actor. -/
theorem Sealed.owner_of_top (safe : c.Sealed) (sound : c.Sound) (undelivered : c.state.Undelivered m a) {t : TaskId}
    (next : c.stage t = some .next) (top : c.state.top t = some m) : ∃ actor exclusive,
      c.state.actors.get? a = some actor ∧ c.state.exclusives.get? actor.state = some exclusive ∧
        c.state.owner exclusive.resource = some t := by
  obtain ⟨g, link, actor, exclusive, phase, known, behind, code⟩ := (safe.seals undelivered).called top
  have on : c.picture.OnChain t m := .of_base ((base_next next).trans top)
  obtain rfl : phase = .held := sound.warded.beneath (.inl on) link (guard?_of_code? code)
  obtain ⟨u, on', owns⟩ := sound.warded.held (guard?_of_code? code)
  obtain rfl := sound.warded.apart (.inl (on.caller link)) (.inl on')
  exact ⟨actor, exclusive, known, behind, owns⟩

variable [Inhabited V]

namespace Stepped

/-- A frame that is resumed has delivered its message. -/
theorem delivered_of_resumed (turn : c.Stepped b config c') (undelivered : c.state.Undelivered m a) {u : TaskId}
    (label : b.resumed? c.state = some (u, m)) : ∃ message, config.state.code? m = some (.message a message true) := by
  obtain ⟨message, code⟩ := undelivered
  obtain ⟨_, _, st, _, _, _, given, resumed, _⟩ :=
    Config.given_of_does (c := b.config c.state) turn.sound.warded.acyclic turn.does label
  cases (stirs_of_resume resumed).congr given.frames with
  | runs here | turns here | frees here | parks here => cases here.symm.trans code
  | passes made => obtain ⟨_, _, here⟩ | ⟨_, _, here⟩ := made <;> cases here.symm.trans code
  | delivers here frames =>
    cases here.symm.trans code
    exact ⟨message, by rw [Stirs.codes_of_setCode here frames, Function.update_self]⟩

/-- Messages that are still to be delivered were so before, or are new. -/
theorem undelivered_before (turn : c.Stepped b config c') (undelivered : config.state.Undelivered m a) :
    c.state.Undelivered m a ∧ (∀ u, b.resumed? c.state ≠ some (u, m)) ∨
      c.state.code? m = none ∧ ∃ message next, b.focus = .code (.ask (.newMessage a message) next) := by
  obtain ⟨message, now⟩ := undelivered
  have unresumed (before : c.state.Undelivered m a) (u : TaskId) : b.resumed? c.state ≠ some (u, m) := fun label => by
    obtain ⟨_, code⟩ := turn.delivered_of_resumed before label
    cases now.symm.trans code
  cases Config.code?_of_does (c := b.config c.state) turn.sound.warded.acyclic turn.does m with
  | same kept =>
    have before : c.state.Undelivered m a := ⟨message, kept.symm.trans now⟩
    exact .inl ⟨before, unresumed before⟩
  | resumed label stirs =>
    obtain ⟨delivered, code⟩ := stirs.message now
    cases delivered with
    | false => exact absurd label (unresumed ⟨message, code⟩ _)
    | true => cases now.symm.trans (stirs.read code)
  | made unused new makes =>
    cases makes with
    | host | join | guard | keeper => cases now.symm.trans new
    | message focus =>
      cases now.symm.trans new
      exact .inr ⟨unused, _, _, focus⟩

/-- A guard that is to call the frame of a message guards the resource of the actor. -/
theorem keeper_of_awaited (turn : c.Stepped b config c') (seals : c.Seals m a)
    (unmentioned : ∀ request next, b.focus = .code (.ask request next) → ¬ request.Mentions m)
    (fresh : ∀ {a' message next}, b.focus = .code (.ask (.newMessage a' message) next) →
      m = c.state.frames.next → a' = a) (awaits : config.state.awaited? g = some m) : config.state.Keeper g a := by
  have acyclic := turn.sound.warded.acyclic
  cases Config.code?_of_does (c := b.config c.state) acyclic turn.does g with
  | same kept =>
    have awaits' : c.state.awaited? g = some m := by
      rwa [awaited?, show config.state.code? g = c.state.code? g from kept] at awaits
    exact Config.keeper_of_does (c := b.config c.state) acyclic turn.does (seals.awaited awaits')
  | resumed label stirs =>
    exact Config.keeper_of_does (c := b.config c.state) acyclic turn.does (seals.awaited (stirs.awaited awaits))
  | made unused new makes =>
    cases makes with
    | host | join | message => simp [awaited?, new] at awaits
    | @guard r body next focus =>
      obtain rfl : body = m := by simpa [awaited?, new] using awaits
      exact absurd rfl (unmentioned _ _ focus)
    | @keeper a' message next actor exclusive focus found behind =>
      rw [awaited?, new] at awaits
      obtain rfl : c.state.frames.next = m := Option.some.inj awaits
      obtain rfl := fresh focus rfl
      obtain ⟨exclusive', behind', same⟩ := Config.resource_of_does (c := b.config c.state) behind turn.does
      exact ⟨actor, exclusive', _, Config.actors_grow turn.does found, behind', same ▸ new⟩

/-- Whoever had nothing to do with a frame has nothing to do with it after a step that neither resumes nor
mentions it. -/
theorem seals (turn : c.Stepped b config c') (seals : c.Seals m a) (plain : c.state.awaited? m = none)
    (unresumed : ∀ u, b.resumed? c.state ≠ some (u, m))
    (unmentioned : ∀ request next, b.focus = .code (.ask request next) → ¬ request.Mentions m)
    (fresh : ∀ {a' message next}, b.focus = .code (.ask (.newMessage a' message) next) →
      m = c.state.frames.next → a' = a) : c'.Seals m a := by
  have acyclic := turn.sound.warded.acyclic
  have unlanded : ∀ u target value after rest, b.stack = .cancel u [] target value after :: rest → target ≠ m := by
    rintro u target value after rest here rfl
    exact seals.aside b turn.member _ (here ▸ List.mem_cons_self) (by simp [Activation.Mentions])
  refine ⟨fun h => ?_, fun b' member y inside mentions => ?_, fun {g} awaits => ?_, fun {t} top => ?_⟩
  · rw [turn.state]
    intro link
    obtain skirts | ⟨t, f, calls⟩ := Config.skirts_of_does (c := b.config c.state) seals.uncalled unlanded unmentioned
      (.inl plain) turn.does
    · exact seals.uncalled h (skirts.caller h link)
    · rw [calls.state.caller] at link
      split at link
      · obtain rfl : f = m := Option.some.inj link
        cases plain.symm.trans calls.state.awaited
      · exact seals.uncalled h link
  · obtain rfl | ⟨old, _⟩ := turn.back member
    · obtain old | ⟨t, label⟩ | ⟨h, link⟩ | ⟨z, old, mentions'⟩ :=
        Config.mentions_of_does (c := b.config c.state) turn.does inside mentions
      · exact seals.aside b turn.member y old mentions
      · exact unresumed t label
      · exact seals.uncalled h link
      · exact seals.aside b turn.member z old mentions'
    · exact seals.aside b' old y inside mentions
  · rw [turn.state] at awaits ⊢
    exact turn.keeper_of_awaited seals unmentioned fresh awaits
  · rw [turn.state] at top ⊢
    obtain skirts | ⟨u, f, calls⟩ := Config.skirts_of_does (c := b.config c.state) seals.uncalled unlanded unmentioned
      (.inl plain) turn.does
    · obtain ⟨g, link, keeper⟩ := seals.called (skirts.top t top)
      exact ⟨g, skirts.link.trans link, Config.keeper_of_does (c := b.config c.state) acyclic turn.does keeper⟩
    · refine ⟨f, (calls.state.caller m).trans (if_pos rfl), ?_⟩
      exact Config.keeper_of_does (c := b.config c.state) acyclic turn.does (seals.awaited calls.state.awaited)

theorem sealed_kept (turn : c.Stepped b config c') (safe : c.Sealed) {f : FrameId}
    (awaits : config.state.awaited? g = some f) : c'.picture.known f := by
  have known (old : c.picture.known f) : c'.picture.known f := by
    obtain ⟨_, effect⟩ := turn.effect
    exact effect.known old
  have acyclic := turn.sound.warded.acyclic
  obtain old | ⟨r, next, focus⟩ | ⟨rfl, rfl, _⟩ :=
    Config.awaited_of_does (c := b.config c.state) acyclic turn.does awaits
  · exact known (safe.kept old)
  · obtain ⟨_, stack⟩ := b
    obtain rfl : _ = _ := focus
    exact known (turn.careful.consents.idle.known)
  · -- The frame of the message was created before its guard.
    have here : (config.state.frames.get? ⟨c.state.frames.next.number + 1⟩).isSome = true := by
      rw [Option.isSome_iff_ne_none]
      intro absent
      simp [awaited?, code?, Agent.config, absent] at awaits
    change (c'.state.frames.get? _).isSome = true
    rw [turn.state, Table.isSome_get?_iff]
    rw [Table.isSome_get?_iff] at here
    exact ⟨Nat.succ_pos _, by exact Nat.le_of_succ_le here.2⟩

theorem sealed (turn : c.Stepped b config c') (safe : c.Sealed) : c'.Sealed := by
  refine ⟨fun awaits => turn.sealed_kept safe (turn.state ▸ awaits), fun {m a} undelivered => ?_⟩
  rw [turn.state] at undelivered
  obtain ⟨before, unresumed⟩ | ⟨unknown, message, next, focus⟩ := turn.undelivered_before undelivered
  · have plain : c.state.awaited? m = none := by
      obtain ⟨_, code⟩ := before
      rw [awaited?, code]
    refine turn.seals (safe.seals before) plain unresumed (turn.careful.unmentioned before) fun _ same => ?_
    obtain ⟨_, code⟩ := before
    rw [same, code?_next] at code
    cases code
  · have plain : c.state.awaited? m = none := by
      rw [awaited?, unknown]
    refine turn.seals (safe.seals_unknown turn.sound unknown) plain (fun u label => ?_) (fun request next' focus' => ?_)
      fun focus' _ => ?_
    · exact code?_of_known (turn.sound.known_of_onChain (turn.concern_of_resumed label).2) unknown
    · rw [focus] at focus'
      cases focus'
      exact id
    · rw [focus] at focus'
      cases focus'
      rfl

end Stepped

end Crew

end Tasking
