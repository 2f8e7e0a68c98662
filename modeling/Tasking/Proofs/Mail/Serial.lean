import Mathlib.Tactic.IntervalCases
import Tasking.Proofs.Mail.Posts

/-! # An actor is a serial fold of its messages

From its creation on, the state of an actor is what its handler makes of the first state and of the messages
delivered so far, and each of these messages is on its way between the guard that got hold of the actor for it and
the frame behind that guard (`Crew.Run.Serial`).  So every guard that lets go of the actor has had its message
delivered, once and while it held the actor, and finishes as the handler did (`Crew.Run.folds_messages`).
-/

namespace Tasking

variable {V C : Type}

open Picture

/-- What a path leads through returns somewhere. -/
theorem links_of_path {caller : FrameId → Option FrameId} {doomed : List FrameId} {target : FrameId}
    (chain : (doomed ++ [target]).IsChain fun f g => caller f = some g) :
    ∀ f ∈ doomed, ∃ g, caller f = some g := by
  induction doomed with
  | nil => simp
  | cons f rest inductionHypothesis =>
    intro h member
    obtain rfl | later := List.mem_cons.1 member
    · obtain ⟨g, line⟩ : ∃ g, (rest ++ [target]).head? = some g := by
        cases rest <;> exact ⟨_, rfl⟩
      obtain ⟨tail, line⟩ := List.head?_eq_some_iff.1 line
      rw [List.cons_append, line] at chain
      exact ⟨g, (List.isChain_cons_cons.1 chain).1⟩
    · exact inductionHypothesis (List.IsChain.tail chain) h later

namespace Crew

open State

/-- Nobody has to do with a frame that does not exist. -/
theorem Sound.shuns_next {c : Crew V C} (sound : c.Sound) : c.Shuns c.state.frames.next := by
  have unknown : ¬ c.picture.known c.state.frames.next := by simp [picture, State.picture, Table.get?_next]
  have rootless : c.state.caller c.state.frames.next = none := by simp [State.caller, Table.get?_next]
  refine ⟨⟨fun u top => unknown (sound.warded.top_known top), fun h link => unknown (sound.warded.caller_known link)⟩,
    fun agent member y inside mentions => ?_⟩
  cases y with
  | call | opened => exact mentions
  | frame t f after =>
    obtain rfl : f = c.state.frames.next := mentions
    exact unknown (sound.warded.inside (sound.stage_of_run member (Agent.mem_runs inside))).1
  | cancel t doomed target value after =>
    have run : (t, .unwinding doomed target) ∈ agent.runs :=
      List.mem_append_right _ (List.mem_filterMap.2 ⟨_, inside, rfl⟩)
    obtain ⟨path, known⟩ := sound.warded.path (sound.stage_of_run member run)
    obtain among | last := List.mem_append.1 (show c.state.frames.next ∈ doomed ++ [target] from mentions)
    · obtain ⟨g, link⟩ := links_of_path path _ among
      exact absurd (rootless.symm.trans link) (by simp)
    · obtain rfl := List.mem_singleton.1 last
      exact unknown known

/-- A guard that has not been resumed yet is to call a frame that delivers a message to the actor. -/
structure Sent (c : Crew V C) (a : ActorId) (r : ResourceId) (g b : FrameId) (message : V) : Prop where
  guard : c.state.code? g = some (.guard r (.start b))
  unread : c.state.code? b = some (.message a message false)

/-- A thread is about to resume a frame of a task: in its next step, or in the one after that.  Its next step meets no
fault. -/
def Nears [Inhabited V] (c : Crew V C) (t : TaskId) (b : FrameId) : Prop :=
  ∃ agent ∈ c.agents, ∃ config, (agent.config c.state).step = .ok config ∧
    (agent.resumed? c.state = some (t, b) ∨ config.agent.resumed? config.state = some (t, b))

namespace Run

variable [Inhabited V] {a : ActorId} {run : Run V C (Discreet a)} {fold : Fold V} {first : V}
  {actor : Actor (Handler V C)} {handler : Handler V C} {r : ResourceId} {x : ExclusiveId} {g b : FrameId} {message : V}
  {k : Nat} {t : TaskId} {st : State V C} {before behind : List (Agent V C)} {agent : Agent V C} {config : Config V C}

theorem Post.code {c : Crew V C} (post : run.Post fold first x r g b message k c) :
    ∃ delivered, c.state.code? b = some (.message a message delivered) := by
  cases post with
  | kept unread | called _ unread | landed _ unread | refused unread => exact ⟨false, unread⟩
  | opened _ read | answered _ read | returned _ read | done read => exact ⟨true, read⟩

theorem Post.unread_or_delivered {c : Crew V C} (post : run.Post fold first x r g b message k c) :
    c.state.code? b = some (.message a message false) ∨ ∃ j < k, ∃ t m, run.DeliversTo a j t b m := by
  cases post with
  | kept unread | called _ unread | landed _ unread | refused unread => exact .inl unread
  | opened _ _ _ _ delivers earlier | answered _ _ _ _ delivers earlier | returned _ _ _ _ _ delivers earlier =>
    exact .inr ⟨_, earlier, _, _, delivers⟩
  | done _ returns earlier => exact .inr ⟨_, returns.earlier.trans earlier, _, _, returns.delivers⟩

/-! ## From the first step on -/

/-- The actor is there, its state is the fold of the messages so far, and messages are on their way. -/
structure Serial (run : Run V C (Discreet a)) (fold : Fold V) (first : V) (actor : Actor (Handler V C))
    (r : ResourceId) (k : Nat) : Prop where
  hosts : (run.crew k).Hosts a actor
  box : run.Box a fold first actor r k
  posts : ∀ {b message delivered}, (run.crew k).state.code? b = some (.message a message delivered) →
    ∃ g, (∃ i ≤ k, (run.crew i).Sent a r g b message) ∧ run.Post fold first actor.state r g b message k (run.crew k)

/-- A message that is sent gets a guard that will call the frame that delivers it. -/
theorem Acts.sent (acts : run.Acts k st before agent behind config) (serial : run.Serial fold first actor r k)
    {next : FrameId → Program V C} (focus : agent.focus = .code (.ask (.newMessage a message) next)) :
    config.focus = .code (next ⟨st.frames.next.number + 1⟩) ∧ config.stack = agent.stack ∧
      KeepsChains st config.state ∧
      (⟨config.state, before ++ config.agent :: behind⟩ : Crew V C).Sent a r ⟨st.frames.next.number + 1⟩
        st.frames.next message := by
  obtain ⟨focus', stack⟩ := agent
  obtain rfl : focus' = _ := focus
  obtain ⟨actor', exclusive, found, behind', onwards, same, state⟩ := Config.step_newMessage acts.step
  have apart : (⟨st.frames.next.number + 1⟩ : FrameId) ≠ st.frames.next := fun same => by
    simpa using congrArg Id.number same
  -- The actor's payload is behind its resource.
  obtain rfl : actor = actor' := by
    have found' := serial.hosts.found
    rw [acts.crew] at found'
    exact Option.some.inj (found'.symm.trans found)
  have resource : exclusive.resource = r := by
    cases serial.box with
    | closed found' | opened _ _ _ found' =>
      rw [acts.crew] at found'
      rw [Option.some.inj (behind'.symm.trans found')]
  have codes := code?_addMessage st a message exclusive.resource
  rw [← state, resource] at codes
  refine ⟨onwards, same, ?_, ⟨?_, ?_⟩⟩
  · rw [state]
    exact .trans (.addFrame rfl) (.addFrame rfl)
  · exact (codes _).trans (if_pos rfl)
  · exact (codes _).trans ((if_neg (Ne.symm apart)).trans (if_pos rfl))

/-- A message that is sent is kept by its guard. -/
theorem Post.of_sent (acts : run.Acts k st before agent behind config) (serial : run.Serial fold first actor r k)
    {next : FrameId → Program V C} (focus : agent.focus = .code (.ask (.newMessage a message) next)) :
    run.Post fold first x r ⟨st.frames.next.number + 1⟩ st.frames.next message (k + 1)
      ⟨config.state, before ++ config.agent :: behind⟩ := by
  obtain ⟨_, stack, keeps, sent⟩ := acts.sent serial focus
  have stocked : (⟨st, before ++ agent :: behind⟩ : Crew V C).Stocked := acts.crew ▸ run.stocked k acts.bound.le
  have shuns := acts.guarded.sound.shuns_next
  refine .kept sent.unread ⟨keeps.shuns shuns.state, fun other member y inside => ?_⟩ (fun {h} awaits => ?_) sent.guard
    (by rw [awaited?, sent.guard])
  · obtain rfl | old := mem_replace member
    · exact shuns.threads agent (List.mem_append_right _ List.mem_cons_self) y (stack ▸ inside)
    · exact shuns.threads other (mem_original old) y inside
  · obtain old | ⟨r', next', focus'⟩ | ⟨_, same, _⟩ := Config.awaited_of_does acts.guarded.acyclic acts.guarded.does awaits
    · have known := stocked.body old
      rw [code?_next] at known
      cases known
    · exact absurd (focus.symm.trans focus') (by simp)
    · exact same

/-- The handler is applied to a message that is delivered, and to the fold of the messages before it. -/
theorem Serial.delivered (serial : run.Serial fold first actor r k) (folds : actor.handler.Folds fold)
    (delivers : run.DeliversTo a k t b message) :
    run.Box a fold first actor r (k + 1) ∧ run.Applies actor r k t b message (run.total a fold first k) := by
  obtain ⟨st, before, agent, behind, config, acts⟩ | ⟨idle, _⟩ := run.acts_or_waits delivers.bound
  · obtain ⟨g, _, post⟩ := serial.posts delivers.code
    have unread := delivers.code
    rw [acts.crew] at post unread
    obtain ⟨mounted, _, ⟨after, focus⟩, well⟩ := post.fresh acts unread (acts.label.symm.trans delivers.resumed)
    exact serial.box.delivered serial.hosts folds acts delivers mounted focus well
  · exact absurd (idle.symm.trans delivers.resumed) (by simp)

theorem Serial.step (serial : run.Serial fold first actor r k) (folds : actor.handler.Folds fold)
    (bound : k < run.length) : run.Serial fold first actor r (k + 1) := by
  have hosts := serial.hosts.step (run.stocked k bound.le) (run.steps k bound)
  obtain ⟨st, before, agent, behind, config, acts⟩ | ⟨idle, waits⟩ := run.acts_or_waits bound
  · have hosts₀ : (⟨st, before ++ agent :: behind⟩ : Crew V C).Hosts a actor := acts.crew ▸ serial.hosts
    refine ⟨hosts, ?_, fun {b message delivered} code => ?_⟩
    · by_cases delivers : ∃ t b message, run.DeliversTo a k t b message
      · obtain ⟨t, b, message, delivers⟩ := delivers
        exact (serial.delivered folds delivers).1
      · exact serial.box.quiet serial.hosts acts fun t b message delivered => delivers ⟨t, b, message, delivered⟩
    · rw [acts.next] at code ⊢
      obtain ⟨delivered', old⟩ | ⟨rfl, _, next, focus⟩ := Config.message_of_does acts.guarded.acyclic acts.guarded.does code
      · obtain ⟨g, ⟨i, early, sent⟩, post⟩ :=
          serial.posts (show (run.crew k).state.code? b = _ by rw [acts.crew]; exact old)
        rw [acts.crew] at post
        exact ⟨g, ⟨i, by omega, sent⟩, post.acts acts hosts₀ serial.box⟩
      · have sent := (acts.sent serial focus).2.2.2
        rw [← acts.next] at sent
        exact ⟨_, ⟨k + 1, le_rfl, sent⟩, .of_sent acts serial focus⟩
  · refine ⟨hosts, serial.box.waits idle waits, fun {b message delivered} code => ?_⟩
    obtain ⟨thread, state⟩ := waits.state
    rw [state] at code
    obtain ⟨g, ⟨i, early, sent⟩, post⟩ := serial.posts code
    exact ⟨g, ⟨i, by omega, sent⟩, post.waits waits⟩

/-- Actors stay what they are. -/
theorem actors_later {j : Nat} {a' : ActorId} (found : (run.crew j).state.actors.get? a' = some actor) (later : j ≤ k)
    (bound : k ≤ run.length) : (run.crew k).state.actors.get? a' = some actor := by
  induction k, later using Nat.le_induction with
  | base => exact found
  | succ k later inductionHypothesis =>
    have found' := inductionHypothesis (by omega)
    obtain ⟨st, before, agent, behind, config, acts⟩ | ⟨_, waits⟩ := run.acts_or_waits bound
    · rw [acts.crew] at found'
      rw [acts.next]
      exact Config.actors_grow acts.guarded.does found'
    · obtain ⟨thread, state⟩ := waits.state
      rw [state]
      exact found'

/-- At this step, an actor is created. -/
structure Creates {allowed : Crew V C → Agent V C → Prop} (run : Run V C allowed) (i : Nat) (a : ActorId) (first : V)
    (handler : Handler V C) : Prop where
  bound : i < run.length
  fresh : a = (run.crew i).state.actors.next
  state : (run.crew (i + 1)).state = ((run.crew i).state.addActor first handler).2

namespace Creates

variable {i : Nat}

/-- Nobody sends messages to an actor that does not exist. -/
theorem unsent (creates : run.Creates i a first handler) {j : Nat} (before : j ≤ i) {delivered : Bool} :
    (run.crew j).state.code? b ≠ some (.message a message delivered) := by
  intro code
  obtain ⟨actor, found⟩ := Option.isSome_iff_exists.1
    ((run.stocked j (before.trans creates.bound.le)).actor code)
  have known := actors_later found before creates.bound.le
  have unknown : (run.crew i).state.actors.get? a = none :=
    (congrArg (run.crew i).state.actors.get? creates.fresh).trans (Table.get?_next _)
  simp [unknown] at known

theorem letters (creates : run.Creates i a first handler) {j : Nat} (before : j ≤ i + 1) : run.letters a j = [] := by
  induction j with
  | zero => rfl
  | succ j inductionHypothesis =>
    have none' : (run.crew j).letter? a (run.resumed j) = none := by
      by_contra something
      obtain ⟨⟨⟨t, b⟩, message⟩, some'⟩ := Option.ne_none_iff_exists'.1 something
      obtain ⟨resumed, code⟩ := letter?_eq_some_iff.1 some'
      exact creates.unsent (by omega) code
    rw [Run.letters, inductionHypothesis (by omega), none']
    rfl

/-- Nobody has a payload open that does not exist. -/
theorem unopened (creates : run.Creates i a first handler) :
    (run.crew (i + 1)).openings (run.crew i).state.exclusives.next = 0 := by
  have stocked := run.stocked i creates.bound.le
  have unused {agent : Agent V C} (member : agent ∈ (run.crew i).agents) :
      .opened (run.crew i).state.exclusives.next ∉ agent.stack := fun inside => by
    have known := stocked.opened member inside
    rw [Table.get?_next] at known
    cases known
  have unused' {agent : Agent V C} (member : agent ∈ (run.crew (i + 1)).agents) :
      .opened (run.crew i).state.exclusives.next ∉ agent.stack := by
    obtain ⟨st, before, other, behind, config, acts⟩ | ⟨_, waits⟩ := run.acts_or_waits creates.bound
    · rw [acts.next] at member
      rw [acts.crew] at unused ⊢
      obtain rfl | old := mem_replace member
      · intro inside
        obtain before | known := Config.opened_of_does acts.guarded.does inside
        · exact unused (List.mem_append_right _ List.mem_cons_self) before
        · exact absurd known (by simp [Agent.config, Table.get?_next])
      · exact unused (mem_original old)
    · intro inside
      obtain ⟨other, among, inside'⟩ := waits.stack member inside
      exact unused among inside'
  refine List.sum_eq_zero fun n member => ?_
  obtain ⟨agent, among, rfl⟩ := List.mem_map.1 member
  refine List.countP_eq_zero.2 fun y inside opens => unused' among ?_
  cases y with
  | opened y =>
    obtain rfl : y = (run.crew i).state.exclusives.next := by simpa [Activation.opens] using opens
    exact inside
  | _ => simp [Activation.opens] at opens

theorem serial (creates : run.Creates i a first handler) :
    run.Serial fold first ⟨(run.crew i).state.exclusives.next, handler⟩ (run.crew i).state.resources.next (i + 1) := by
  have stocked := run.stocked i creates.bound.le
  have total : run.total a fold first (i + 1) = first := by rw [Run.total, creates.letters le_rfl]; rfl
  have found : (run.crew (i + 1)).state.actors.get? a =
      some ⟨(run.crew i).state.exclusives.next, handler⟩ := by
    rw [creates.state, Config.get?_addActor, if_pos creates.fresh]
  refine ⟨⟨found, fun {a' actor'} found' same => ?_⟩, .closed ?_ creates.unopened, fun {b message delivered} code => ?_⟩
  · rw [creates.state, Config.get?_addActor] at found'
    split at found'
    · next same => exact same.trans creates.fresh.symm
    · have known := stocked.payload found'
      rw [same, Table.get?_next] at known
      cases known
  · rw [total, creates.state]
    exact Table.get?_add_new ..
  · exact absurd (creates.state ▸ code) (creates.unsent le_rfl)

theorem serial_later (creates : run.Creates i a first handler) (folds : handler.Folds fold) (later : i < k)
    (bound : k ≤ run.length) :
    run.Serial fold first ⟨(run.crew i).state.exclusives.next, handler⟩ (run.crew i).state.resources.next k := by
  induction k, later using Nat.le_induction with
  | base => exact creates.serial
  | succ k later inductionHypothesis => exact (inductionHypothesis (by omega)).step folds (by omega)

end Creates

/-! ## What becomes of a message -/

theorem Post.later (serial : ∀ k', k ≤ k' → k' ≤ run.length → run.Serial fold first actor r k')
    (post : run.Post fold first actor.state r g b message k (run.crew k)) {k' : Nat} (later : k ≤ k')
    (bound : k' ≤ run.length) : run.Post fold first actor.state r g b message k' (run.crew k') := by
  induction k', later using Nat.le_induction with
  | base => exact post
  | succ k' later inductionHypothesis =>
    have post' := inductionHypothesis (by omega)
    have serial' := serial k' later (by omega)
    obtain ⟨st, before, agent, behind, config, acts⟩ | ⟨_, waits⟩ := run.acts_or_waits bound
    · have hosts := serial'.hosts
      rw [acts.crew] at post' hosts
      rw [acts.next]
      exact post'.acts acts hosts serial'.box
    · exact post'.waits waits

/-- The guard that is to call a frame is on the actor's resource, and keeps the frame. -/
theorem Serial.of_sent (serial : run.Serial fold first actor r k) {r' : ResourceId}
    (sent : (run.crew k).Sent a r' g b message) :
    r' = r ∧ run.Post fold first actor.state r g b message k (run.crew k) := by
  have awaits : (run.crew k).state.awaited? g = some b := by rw [awaited?, sent.guard]
  obtain ⟨g', _, post⟩ := serial.posts sent.unread
  have post' := post
  cases post with
  | kept unread shuns keeper guard =>
    obtain rfl := keeper awaits
    obtain ⟨rfl, _⟩ : r' = r ∧ _ = _ := by simpa using sent.guard.symm.trans guard
    exact ⟨rfl, post'⟩
  | called mounted | landed mounted => exact absurd awaits (mounted.unkept g)
  | refused _ _ unkept => exact absurd awaits (unkept g)
  | opened _ read | answered _ read | returned _ read | done read =>
    exact absurd (read.symm.trans sent.unread) (by simp)

/-- A message is delivered while its guard holds the actor. -/
theorem Post.holds (post : run.Post fold first x r g b message k (run.crew k)) {message' : V}
    (delivers : run.DeliversTo a k t b message') : message' = message ∧ (run.crew k).Holds t g r ∧
      (run.crew k).state.guard? g = some (r, .held) := by
  obtain ⟨delivered, code⟩ := post.code
  obtain ⟨rfl, rfl⟩ : message' = message ∧ false = delivered := by simpa using delivers.code.symm.trans code
  obtain ⟨st, before, agent, behind, config, acts⟩ | ⟨idle, _⟩ := run.acts_or_waits delivers.bound
  · rw [acts.crew] at post code ⊢
    obtain ⟨mounted, top, ⟨after, focus⟩, _⟩ := post.fresh acts code (acts.label.symm.trans delivers.resumed)
    have member : agent ∈ (⟨st, before ++ agent :: behind⟩ : Crew V C).agents :=
      List.mem_append_right _ List.mem_cons_self
    have run' : (t, .next) ∈ agent.runs := by simp [Agent.runs, focus, Focus.run?]
    have uses := acts.guarded.sound.uses_top member run' (by simp) top
    have held := guard?_of_code? mounted.guard
    exact ⟨rfl, ⟨acts.guarded.sound.warded.uses_caller uses mounted.link, .inl held⟩, held⟩
  · exact absurd (idle.symm.trans delivers.resumed) (by simp)

/-- The state is closed while the frame is about to be resumed that delivers the next message. -/
theorem Box.free (box : run.Box a fold first actor r k) (sound : (run.crew k).Sound) {after : Focus V C}
    {rest : List (Activation V C)} (mounted : (run.crew k).state.Mounted r g b)
    (top : (run.crew k).state.top t = some b) (member : ⟨.trampoline t after, rest⟩ ∈ (run.crew k).agents) :
    (run.crew k).state.exclusives.get? actor.state = some ⟨r, run.total a fold first k, false⟩ := by
  cases box with
  | closed found => exact found
  | @opened j t' b' message v p after' rest' delivers earlier sum found once member' mounted' read settles =>
    -- The guard behind it is the same, and one task cannot be in two places.
    obtain ⟨g', mounted'⟩ := mounted'
    have here := sound.stage_of_run member (show (t, .next) ∈ _ by simp [Agent.runs, Focus.run?])
    have there := sound.stage_of_run member' (show (t', .inside b') ∈ _ by simp [Agent.runs, Activation.run?])
    have on : (run.crew k).picture.OnChain t g :=
      (OnChain.of_base ((base_next here).trans top)).caller mounted.link
    have on' : (run.crew k).picture.OnChain t' g' := sound.warded.onChain_caller there mounted'.link
    obtain rfl : g = g' := sound.warded.alone (r := r) ⟨on, .inl (guard?_of_code? mounted.guard)⟩
      ⟨on', .inl (guard?_of_code? mounted'.guard)⟩
    obtain rfl : t = t' := sound.warded.apart (.inl on) (.inl on')
    exact absurd (here.symm.trans there) (by simp)

theorem Serial.nears (serial : run.Serial fold first actor r k) (bound : k ≤ run.length)
    (post : run.Post fold first actor.state r g b message k (run.crew k))
    (held : (run.crew k).state.guard? g = some (r, .held))
    (unread : (run.crew k).state.code? b = some (.message a message false)) : ∃ t, (run.crew k).Nears t b := by
  have sound := run.sound_of_discreet bound
  cases post with
  | kept _ _ _ guard waits =>
    obtain rfl : _ = Phase.held := by simpa using (guard?_of_code? guard).symm.trans held
    simp [awaited?, guard] at waits
  | opened _ read | answered _ read | returned _ read | done read =>
    exact absurd (read.symm.trans unread) (by simp)
  | refused _ _ _ refuses earlier =>
    have gone : (run.guarded.crew k).state.guard? g = some (r, .released) :=
      released_later earlier bound refuses.ended
    exact absurd (held.symm.trans gone) (by simp)
  | @called t v after rest mounted _ top member =>
    have apart : b ≠ g := by
      rintro rfl
      exact absurd (unread.symm.trans mounted.guard) (by simp)
    obtain ⟨config, step, resumed⟩ := Config.step_lands after rest top (isSome_of_guard? held) apart v
    exact ⟨t, _, member, config, step, .inr resumed⟩
  | @landed t after rest mounted _ top well member =>
    obtain ⟨task, found, none'⟩ := well
    have free := serial.box.free sound mounted top member
    have stage := sound.stage_of_run member (show (t, .next) ∈ _ by simp [Agent.runs, Focus.run?])
    have on : (run.crew k).picture.OnChain t g :=
      (OnChain.of_base ((base_next stage).trans top)).caller mounted.link
    have owner : (run.crew k).state.owner r = some t :=
      sound.warded.owner_of_holds ⟨on, .inl held⟩
    obtain ⟨config, step⟩ := Config.step_opens after rest found ((top_of_get? found).symm.trans top) none' unread
      serial.hosts.found free owner rfl
    exact ⟨t, _, member, config, step, .inl (by simp [Agent.resumed?, top])⟩

/-- What becomes of a message that has been sent: it is delivered once at most, while its guard holds the actor, and
once the guard has called the frame behind it, nothing stands in its way; if the guard lets go, the message has been
delivered, and the guard finishes as the handler did; if the guard is refused or given an error before it asks, it
throws that error, and the message is never delivered. -/
structure Fate (run : Run V C (Discreet a)) (fold : Fold V) (first : V) (r : ResourceId) (i : Nat) (g b : FrameId)
    (message : V) : Prop where
  once : ∀ {j j' t t' m m'}, run.DeliversTo a j t b m → run.DeliversTo a j' t' b m' → j = j'
  holds : ∀ {j t m}, run.DeliversTo a j t b m → i ≤ j ∧ m = message ∧ (run.crew j).Holds t g r
  nears : ∀ {k}, i ≤ k → k ≤ run.length → (run.crew k).state.guard? g = some (r, .held) →
    (∃ j < k, ∃ t m, run.DeliversTo a j t b m) ∨ ∃ t, (run.crew k).Nears t b
  ends : ∀ {k t}, k ≤ run.length → (run.crew k).Holds t g r →
    (∀ j, k ≤ j → j ≤ run.length → (run.crew j).Holds t g r) ∨ ∃ e, k ≤ e ∧ run.guarded.Releases e t g r
  returns : ∀ {e t}, run.guarded.Releases e t g r → ∃ j, run.Returns fold first j e t g b r message
  refused : ∀ {k t}, k < run.length → run.resumed k = some (t, g) →
    (run.crew k).state.guard? g = some (r, .start b) → (run.crew (k + 1)).state.guard? g = some (r, .released) →
      (∃ e, run.Refuses k t g b r e) ∧ ∀ j u m, ¬ run.DeliversTo a j u b m

/-- A guard that has its resource keeps it, or lets go of it. -/
theorem keeps_or_releases {i j : Nat} (later : i ≤ j) (bound : j ≤ run.length) (holds : (run.crew i).Holds t g r) :
    (∀ m, i ≤ m → m ≤ j → (run.crew m).Holds t g r) ∨ ∃ e, i ≤ e ∧ e < j ∧ run.guarded.Releases e t g r := by
  have holds' : (run.guarded.crew i).Holds t g r := holds
  obtain kept | ⟨e, first, last, releases, _⟩ := holds_or_released later bound holds'
  · exact .inl kept
  · exact .inr ⟨e, first, last, releases⟩

/-- A guard that has not been resumed yet neither holds anything nor has let go of anything. -/
theorem unresumed_before (run : Run V C Guarded) {j : Nat} (earlier : j ≤ k) (bound : k ≤ run.length)
    (start : (run.crew k).state.guard? g = some (r, .start b)) {r' : ResourceId} :
    (run.crew j).state.guard? g ≠ some (r', .held) ∧ (run.crew j).state.guard? g ≠ some (r', .released) := by
  refine ⟨fun held => ?_, fun gone => absurd (start.symm.trans (released_later earlier bound gone)) (by simp)⟩
  obtain ⟨t, on, owns⟩ := (run.sound j (by omega)).warded.held held
  obtain kept | ⟨e, _, last, releases, _⟩ := holds_or_released earlier bound ⟨on, .inl held⟩
  · obtain ⟨phase, guard, engaged⟩ := (kept k earlier le_rfl).engaged
    obtain ⟨_, rfl⟩ : r = r' ∧ _ = phase := by simpa using start.symm.trans guard
    cases engaged
  · exact absurd (start.symm.trans (released_later last bound releases.ended)) (by simp)

/-- A guard that has let go was refused, or it returned. -/
theorem Post.over (post : run.Post fold first x r g b message k (run.crew k)) {r' : ResourceId}
    (ended : (run.crew k).state.guard? g = some (r', .released)) :
    (∃ i u e, i < k ∧ run.Refuses i u g b r e) ∨ ∃ j i u, i < k ∧ run.Returns fold first j i u g b r message := by
  have held (code : (run.crew k).state.code? g = some (.guard r .held)) : False :=
    absurd ((guard?_of_code? code).symm.trans ended) (by simp)
  cases post with
  | kept unread shuns keeper guard waits =>
    obtain ⟨_, rfl⟩ : r = r' ∧ _ = _ := by simpa using (guard?_of_code? guard).symm.trans ended
    simp [awaited?, guard] at waits
  | called mounted | landed mounted | opened mounted | answered mounted => exact (held mounted.guard).elim
  | returned guard => exact (held guard).elim
  | refused _ _ _ refuses earlier => exact .inl ⟨_, _, _, earlier, refuses⟩
  | done _ returns earlier => exact .inr ⟨_, _, _, earlier, returns⟩

theorem Serial.fate {i : Nat} (serial : ∀ k, i ≤ k → k ≤ run.length → run.Serial fold first actor r k)
    (bound : i ≤ run.length) (sent : (run.crew i).Sent a r g b message) : run.Fate fold first r i g b message := by
  have start : (run.crew i).state.guard? g = some (r, .start b) := guard?_of_code? sent.guard
  have post {k : Nat} (later : i ≤ k) (bound' : k ≤ run.length) :
      run.Post fold first actor.state r g b message k (run.crew k) :=
    .later serial ((serial i le_rfl bound).of_sent sent).2 later bound'
  have holds {j : Nat} {t : TaskId} {m : V} (delivers : run.DeliversTo a j t b m) : i ≤ j ∧ m = message ∧
      (run.crew j).Holds t g r ∧ (run.crew j).state.guard? g = some (r, .held) := by
    have later : i ≤ j := by
      by_contra early
      exact absurd ((delivers.read_later (by omega) bound).symm.trans sent.unread) (by simp)
    exact ⟨later, (post later delivers.bound.le).holds delivers⟩
  refine ⟨fun delivers delivers' => delivers.unique delivers', fun delivers => ?_, fun {k} later bound' held => ?_,
    fun {k t} bound' having => ?_, fun {e t} releases => ?_, fun {k t} bound' resumed start' ended => ?_⟩
  · obtain ⟨later, same, having, _⟩ := holds delivers
    exact ⟨later, same, having⟩
  · obtain unread | delivered := (post later bound').unread_or_delivered
    · exact .inr ((serial k later bound').nears bound' (post later bound') held unread)
    · exact .inl delivered
  · obtain kept | ⟨e, later, _, releases⟩ := keeps_or_releases bound' le_rfl having
    · exact .inl fun j later last => kept j later last
    · exact .inr ⟨e, later, releases⟩
  · have later : i ≤ e := by
      by_contra early
      exact (unresumed_before run.guarded (show e ≤ i by omega) bound start).1 releases.held
    obtain ⟨i', u, error, early, refuses⟩ | ⟨j, i', u, early, returns⟩ :=
      (post (by omega) releases.bound).over releases.ended
    · -- What was refused does not hold anything.
      obtain before | rfl := Nat.lt_or_eq_of_le (Nat.lt_succ_iff.1 early)
      · have gone : (run.guarded.crew e).state.guard? g = some (r, .released) :=
          released_later (show i' + 1 ≤ e by omega) releases.bound.le refuses.ended
        exact absurd (gone.symm.trans releases.held) (by simp)
      · exact absurd (refuses.start.symm.trans releases.held) (by simp)
    · obtain rfl := returns.releases.unique releases
      obtain rfl : u = t := by simpa using returns.releases.resumed.symm.trans releases.resumed
      exact ⟨j, returns⟩
  · have later : i ≤ k := by
      by_contra early
      exact (unresumed_before run.guarded (show k + 1 ≤ i by omega) bound start).2 ended
    have unheld {j : Nat} (earlier : j ≤ k) : (run.crew j).state.guard? g ≠ some (r, .held) ∧
        (run.crew j).state.guard? g ≠ some (r, .released) := unresumed_before run.guarded earlier bound'.le start'
    refine ⟨?_, fun j u m delivers => ?_⟩
    · obtain ⟨i', u, error, early, refuses⟩ | ⟨j, i', u, early, returns⟩ := (post (by omega) bound').over ended
      · obtain before | rfl := Nat.lt_or_eq_of_le (Nat.lt_succ_iff.1 early)
        · exact absurd refuses.ended (unheld before).2
        · obtain rfl : u = t := by simpa using refuses.resumed.symm.trans resumed
          exact ⟨error, refuses⟩
      · exact absurd returns.releases.held (unheld (Nat.lt_succ_iff.1 early)).1
    · obtain ⟨_, _, _, held⟩ := holds delivers
      obtain before | after := Nat.lt_or_ge k j
      · have gone : (run.guarded.crew j).state.guard? g = some (r, .released) :=
          released_later before delivers.bound.le ended
        exact absurd (gone.symm.trans held) (by simp)
      · exact absurd held (unheld after).1

/-- At this step, a task becomes the owner of a resource through a guard. -/
structure Gains {allowed : Crew V C → Agent V C → Prop} (run : Run V C allowed) (i : Nat) (t : TaskId) (g : FrameId)
    (r : ResourceId) : Prop where
  bound : i < run.length
  before : ¬ (run.crew i).Holds t g r
  after : (run.crew (i + 1)).Holds t g r

/-- Messages are delivered in the order in which their guards got hold of the actor. -/
theorem Fate.in_order {i i' k k' : Nat} {g' b' : FrameId} {message' : V} {t' : TaskId}
    (fate : run.Fate fold first r k g b message) (fate' : run.Fate fold first r k' g' b' message')
    (gains : run.Gains i t g r) (gains' : run.Gains i' t' g' r) (order : i < i') {j' : Nat} {u : TaskId} {m : V}
    (delivers : run.DeliversTo a j' u b' m) : ∃ j < j', ∃ m, run.DeliversTo a j t b m := by
  have sound := run.sound_of_discreet (i := i' + 1) gains'.bound
  obtain ⟨_, _, holds⟩ := fate'.holds delivers
  -- The second guard does not deliver its message before it has got hold of the actor.
  have late : i' < j' := by
    by_contra early
    obtain kept | ⟨e, _, last, releases⟩ := keeps_or_releases (show j' ≤ i' + 1 by omega) gains'.bound holds
    · have after := kept (i' + 1) (by omega) le_rfl
      obtain rfl : u = t' := Option.some.inj
        ((sound.warded.owner_of_holds after).symm.trans (sound.warded.owner_of_holds gains'.after))
      exact gains'.before (kept i' (by omega) (by omega))
    · have gone : (run.guarded.crew (i' + 1)).state.guard? g' = some (r, .released) :=
        released_later last gains'.bound releases.ended
      obtain ⟨phase, guard, engaged⟩ := gains'.after.engaged
      obtain rfl : _ = phase := by simpa using gone.symm.trans guard
      cases engaged
  -- The first guard has let go of it by then.
  obtain kept | ⟨e, _, last, releases⟩ := keeps_or_releases (show i + 1 ≤ i' + 1 by omega) gains'.bound gains.after
  · have after := kept (i' + 1) (by omega) le_rfl
    obtain rfl : g = g' := sound.warded.alone after gains'.after
    obtain rfl : t = t' := Option.some.inj
      ((sound.warded.owner_of_holds after).symm.trans (sound.warded.owner_of_holds gains'.after))
    exact absurd (kept i' (by omega) (by omega)) gains'.before
  · obtain ⟨j, returns⟩ := fate.returns releases
    exact ⟨j, by have := returns.earlier; omega, message, returns.delivers⟩

/-- From its creation on, an actor whose handler updates the state and then finishes is a serial fold of its messages.
Its state is what the handler makes of the first state and of the messages delivered so far, one after the other.
Each message that is sent has a guard of its own.  Each message that is delivered was sent, and the handler is applied
to it while its guard holds the actor.  `Fate` says what becomes of a message that is sent.  Messages are delivered in
the order in which their guards got hold of the actor. -/
theorem folds_messages (run : Run V C (Discreet a)) {i : Nat} (creates : run.Creates i a first handler)
    (folds : handler.Folds fold) :
    ∃ actor r, (run.crew (i + 1)).state.actors.get? a = some actor ∧ actor.handler = handler ∧
      (∀ {k}, i < k → k ≤ run.length → run.Box a fold first actor r k) ∧
      (∀ {k st before agent behind config message next}, i < k → run.Acts k st before agent behind config →
        agent.focus = .code (.ask (.newMessage a message) next) →
          ∃ g b, config.focus = .code (next g) ∧ (run.crew (k + 1)).Sent a r g b message) ∧
      (∀ {j t b message}, run.DeliversTo a j t b message →
        run.Applies actor r j t b message (run.total a fold first j) ∧
        ∃ g k, i < k ∧ k ≤ j ∧ (run.crew k).Sent a r g b message ∧ (run.crew j).Holds t g r) ∧
      (∀ {k g b r' message}, i < k → k ≤ run.length → (run.crew k).Sent a r' g b message →
        r' = r ∧ run.Fate fold first r k g b message) ∧
      ∀ {k k' g g' b b' message message'}, i < k → k ≤ run.length → (run.crew k).Sent a r g b message →
        i < k' → k' ≤ run.length → (run.crew k').Sent a r g' b' message' →
          ∀ {l l' t t'}, run.Gains l t g r → run.Gains l' t' g' r → l < l' →
            ∀ {j' u m}, run.DeliversTo a j' u b' m → ∃ j < j', ∃ m, run.DeliversTo a j t b m := by
  have serial {k : Nat} (later : i < k) (bound : k ≤ run.length) := creates.serial_later folds later bound
  have fate {k : Nat} {g b : FrameId} {message : V} (later : i < k) (bound : k ≤ run.length)
      (sent : (run.crew k).Sent a (run.crew i).state.resources.next g b message) :=
    Serial.fate (fun k' later' => serial (Nat.lt_of_lt_of_le later later')) bound sent
  refine ⟨⟨(run.crew i).state.exclusives.next, handler⟩, (run.crew i).state.resources.next, ?_, rfl,
    fun later bound => (serial later bound).box, ?_, ?_, ?_, ?_⟩
  · exact (serial (Nat.lt_succ_self i) creates.bound).hosts.found
  · intro k st before agent behind config message next later acts focus
    obtain ⟨onwards, _, _, sent⟩ := acts.sent (serial later acts.bound.le) focus
    rw [← acts.next] at sent
    exact ⟨_, _, onwards, sent⟩
  · intro j t b message delivers
    have later : i < j := by
      by_contra early
      exact creates.unsent (by omega) delivers.code
    obtain ⟨g, ⟨k, early, sent⟩, _⟩ := (serial later delivers.bound.le).posts delivers.code
    have known : i < k := by
      by_contra before
      exact creates.unsent (by omega) sent.unread
    obtain ⟨_, _, holds⟩ := (fate known (early.trans delivers.bound.le) sent).holds delivers
    exact ⟨((serial later delivers.bound.le).delivered folds delivers).2, g, k, known, early, sent, holds⟩
  · intro k g b r' message later bound sent
    obtain ⟨rfl, _⟩ := (serial later bound).of_sent sent
    exact ⟨rfl, fate later bound sent⟩
  · intro k k' g g' b b' message message' later bound sent later' bound' sent' l l' t t' gains gains' order j' u m
      delivers
    exact (fate later bound sent).in_order (fate later' bound' sent') gains gains' order delivers

/-! ### Two tallies

Two tasks with a message each for an actor that adds up what it is sent, and answers what the sum was before. -/

def tally : Handler Nat Empty := fun _ x message =>
  .ask (.exclusive x) fun exclusive => .ask (.setPayload x (exclusive.payload + message)) fun _ =>
    .answer (.ofResult (.ok exclusive.payload))

def tallyFold : Fold Nat := fun _ v message => (v + message, .ok v)

theorem folds_tally : tally.Folds tallyFold := by
  intro context x v message
  refine .reads fun exclusive same => .writes ?_
  rw [same]
  exact .answer

def tallies : Program Nat Empty :=
  .newActor 0 tally fun a =>
  .ask (.newMessage a 1) fun guard =>
  .ask (.newMessage a 2) fun guard' =>
  .ask .newRegistry fun g =>
  .ask (.newScheduler .manual g) fun
    | .error _ => .answer .suspended
    | .ok s => .ask (.spawn s guard) fun
      | .error _ => .answer .suspended
      | .ok t => .ask (.spawn s guard') fun
        | .error _ => .answer .suspended
        | .ok u => .ask (.start t) fun _ => .ask (.start u) fun _ =>
          .drive s fun _ => .answer (.done 0)

/-- The host of the two tasks after so many steps. -/
def talliesHost (n : Nat) : Config Nat Empty := (Config.start (.initial 1) tallies).after n

theorem tallies_ok : ∀ n < 31, (talliesHost n).step.isOk = true := by decide +kernel

omit [Inhabited V] in
/-- A frame is idle if no chain in use has more than one frame, and the frame is not the first of any. -/
theorem idle_of_short {c : Crew V C} {f : FrameId} (known : c.picture.known f)
    (bases : ∀ t b, c.picture.base t = some b → c.state.caller b = none ∧ b ≠ f)
    (insides : ∀ t, c.stage t ≠ some (.inside f))
    (unresumed : ∀ r phase, c.state.guard? f = some (r, phase) → ∃ body, phase = .start body) :
    c.picture.Idle f := by
  refine ⟨known, ?_, fun {r phase} => unresumed r phase⟩
  rintro t (⟨b, base, way⟩ | inside)
  · obtain rfl | ⟨c', link, _⟩ := way.cases_caller
    · exact (bases t b base).2 rfl
    · exact absurd ((bases t b base).1.symm.trans link) (by simp)
  · exact insides t inside

theorem tallies_spawn_first : Guarded (talliesHost 5).alone (talliesHost 5).agent := by
  show ∀ f, Reaches (talliesHost 5).state.caller ⟨2⟩ f → (talliesHost 5).alone.picture.Idle f
  intro f way
  obtain rfl : ⟨2⟩ = f := way.cases_caller.resolve_right (by rintro ⟨_, ⟨⟩, _⟩)
  refine idle_of_short rfl ?_ ?_ ?_
  · rintro ⟨_ | n⟩ b ⟨⟩
  · rintro ⟨_ | n⟩ ⟨⟩
  · rintro r phase ⟨⟩
    exact ⟨_, rfl⟩

theorem tallies_spawn_second : Guarded (talliesHost 6).alone (talliesHost 6).agent := by
  show ∀ f, Reaches (talliesHost 6).state.caller ⟨4⟩ f → (talliesHost 6).alone.picture.Idle f
  intro f way
  obtain rfl : ⟨4⟩ = f := way.cases_caller.resolve_right (by rintro ⟨_, ⟨⟩, _⟩)
  refine idle_of_short rfl ?_ ?_ ?_
  · rintro ⟨_ | _ | n⟩ b ⟨⟩
    exact ⟨rfl, by rintro ⟨⟩⟩
  · rintro ⟨_ | _ | n⟩ ⟨⟩
  · rintro r phase ⟨⟩
    exact ⟨_, rfl⟩

theorem tallies_trampoline {n : Nat} {t : TaskId} {f : FrameId} {after : Focus Nat Empty}
    (focus : (talliesHost n).agent.focus = .trampoline t after) (top : (talliesHost n).state.top t = some f)
    (calls : ∀ r body, (talliesHost n).state.guard? f = some (r, .start body) →
      (talliesHost n).alone.picture.Idle body)
    (resting : ∀ r body value, (talliesHost n).state.guard? f ≠ some (r, .waiting body value)) :
    Guarded (talliesHost n).alone (talliesHost n).agent := by
  unfold Guarded
  rw [focus]
  intro task g r body found first _ asks
  obtain rfl : f = g := Option.some.inj (top.symm.trans ((State.top_of_get? found).trans first))
  obtain ⟨starts, _⟩ | ⟨value, waits⟩ := asks
  · exact calls r body starts
  · exact absurd waits (resting r body value)

theorem tallies_guarded : ∀ n < 31, Guarded (talliesHost n).alone (talliesHost n).agent := by
  intro n bound
  interval_cases n
  case «5» => exact tallies_spawn_first
  case «6» => exact tallies_spawn_second
  case «11» =>
    refine tallies_trampoline (t := ⟨1⟩) (f := ⟨2⟩) rfl rfl ?_ (by rintro r body value ⟨⟩)
    rintro r body ⟨⟩
    refine idle_of_short rfl ?_ ?_ (by rintro r phase ⟨⟩)
    · rintro ⟨_ | _ | _ | n⟩ b ⟨⟩ <;> exact ⟨rfl, by rintro ⟨⟩⟩
    · rintro ⟨_ | _ | _ | n⟩ ⟨⟩
  case «21» =>
    refine tallies_trampoline (t := ⟨2⟩) (f := ⟨4⟩) rfl rfl ?_ (by rintro r body value ⟨⟩)
    rintro r body ⟨⟩
    refine idle_of_short rfl ?_ ?_ (by rintro r phase ⟨⟩)
    · rintro ⟨_ | _ | _ | n⟩ b ⟨⟩
      exact ⟨rfl, by rintro ⟨⟩⟩
    · rintro ⟨_ | _ | _ | n⟩ ⟨⟩
  case «13» | «18» => exact tallies_trampoline (t := ⟨1⟩) rfl rfl (by rintro r body ⟨⟩) (by rintro r body value ⟨⟩)
  case «23» | «28» => exact tallies_trampoline (t := ⟨2⟩) rfl rfl (by rintro r body ⟨⟩) (by rintro r body value ⟨⟩)
  all_goals trivial

theorem tallies_discreet : ∀ n < 31, Discreet ⟨1⟩ (talliesHost n).alone (talliesHost n).agent := by
  intro n bound
  refine ⟨tallies_guarded n bound, ?_⟩
  interval_cases n
  case «1» | «2» | «3» | «4» | «7» | «8» | «14» | «24» => exact ⟨fun _ _ _ _ => id, trivial⟩
  case «5» | «6» =>
    refine ⟨?_, trivial⟩
    rintro b message delivered code rfl
    cases code
  case «15» | «25» => exact ⟨fun _ _ _ _ => id, fun _ _ _ => List.mem_cons_self⟩
  all_goals trivial

def talliesRun : Run Nat Empty (Discreet ⟨1⟩) := .ofHost 1 tallies 31 tallies_ok tallies_discreet

theorem tallies_create : talliesRun.Creates 1 ⟨1⟩ 0 tally := ⟨by decide, rfl, rfl⟩

theorem tallies_sent : (talliesRun.crew 3).Sent ⟨1⟩ ⟨1⟩ ⟨2⟩ ⟨1⟩ 1 := ⟨rfl, rfl⟩

theorem tallies_release : talliesRun.guarded.Releases 19 ⟨1⟩ ⟨2⟩ ⟨1⟩ := releases_of_held (by decide) rfl rfl

theorem tallies_fold : talliesRun.Creates 1 ⟨1⟩ 0 tally ∧ tally.Folds tallyFold ∧
    talliesRun.total ⟨1⟩ tallyFold 0 32 = 3 ∧ ∃ actor r, talliesRun.Box ⟨1⟩ tallyFold 0 actor r 32 ∧
      ∃ j, talliesRun.Returns tallyFold 0 j 19 ⟨1⟩ ⟨2⟩ ⟨1⟩ r 1 := by
  obtain ⟨actor, r, _, _, boxes, _, _, fates, _⟩ := folds_messages talliesRun tallies_create folds_tally
  obtain ⟨rfl, fate⟩ := fates (by decide) (by decide) tallies_sent
  exact ⟨tallies_create, folds_tally, by decide +kernel, actor, _, boxes (by decide) (by decide),
    fate.returns tallies_release⟩

end Run

end Crew

end Tasking
