import Tasking.Proofs.Intact.Sealed

/-! # Open payloads

While a payload is open, some thread has yet to close it, and the innermost run below that place is the run of
the task that owns the resource (`Crew.Occupied`).  As each task is run by one thread only, a task that may open
a payload finds it closed, unless the code that asks has it open itself.
-/

namespace Tasking

open Picture

variable {V C : Type}

/-- A thread has a payload open for the task whose run comes next on its stack. -/
def Agent.Occupies (b : Agent V C) (t : TaskId) (x : ExclusiveId) : Prop :=
  ∃ post s, .opened x :: post <:+ b.stack ∧ (post.filterMap Activation.run?).head? = some (t, s)

/-- Above a place where nothing runs, all open payloads are open for the code in focus. -/
theorem Activation.mem_payloads {front post : List (Activation V C)} {x : ExclusiveId}
    (idle : front.filterMap Activation.run? = []) : x ∈ Activation.payloads (front ++ .opened x :: post) := by
  induction front with
  | nil => exact List.mem_cons_self
  | cons y front inductionHypothesis =>
    cases y with
    | frame | cancel => simp [Activation.run?] at idle
    | call => exact inductionHypothesis (by simpa [Activation.run?] using idle)
    | opened => exact List.mem_cons_of_mem _ (inductionHypothesis (by simpa [Activation.run?] using idle))

namespace Agent

variable {a b : Agent V C} {t : TaskId} {x : ExclusiveId}

theorem Occupies.run (occupies : b.Occupies t x) : ∃ s, (t, s) ∈ b.stack.filterMap Activation.run? := by
  obtain ⟨post, s, behind, head⟩ := occupies
  refine ⟨s, ?_⟩
  have behind' := (List.suffix_cons (.opened x) post).trans behind
  exact (behind'.filterMap Activation.run?).subset (List.mem_of_mem_head? head)

/-- What a thread has open stays so as more is put on its stack. -/
theorem Occupies.push {focus : Focus V C} {stack : List (Activation V C)} (occupies : b.Occupies t x)
    (front : List (Activation V C)) (same : stack = front ++ b.stack) : Agent.Occupies ⟨focus, stack⟩ t x := by
  obtain ⟨post, s, behind, head⟩ := occupies
  exact ⟨post, s, behind.trans (same ▸ List.suffix_append front b.stack), head⟩

/-- Popping something else leaves a payload open. -/
theorem Occupies.pop {focus : Focus V C} {y : Activation V C} {rest : List (Activation V C)}
    (occupies : Agent.Occupies ⟨focus, y :: rest⟩ t x) (other : y ≠ .opened x) :
    Agent.Occupies ⟨.rest, rest⟩ t x := by
  obtain ⟨post, s, behind, head⟩ := occupies
  obtain same | behind := List.suffix_cons_iff.1 behind
  · exact absurd (List.cons.inj same).1.symm other
  · exact ⟨post, s, behind, head⟩

/-- A thread that has a payload open for a task resumes no frame of the task. -/
theorem Occupies.unresumed {st : State V C} (occupies : b.Occupies t x) {f : FrameId}
    (label : b.resumed? st = some (t, f)) : ∃ s s' others, b.runs = (t, s) :: others ∧ (t, s') ∈ others := by
  obtain ⟨focus, stack⟩ := b
  unfold Agent.resumed? at label
  split at label
  · next at' =>
    obtain rfl : focus = _ := at'
    obtain ⟨g, _, same⟩ := Option.map_eq_some_iff.1 label
    cases same
    obtain ⟨s, run⟩ := occupies.run
    exact ⟨.next, s, _, rfl, run⟩
  · next at' line =>
    obtain rfl : focus = _ := at'
    obtain rfl : stack = _ := line
    cases label
    obtain ⟨s, run⟩ := (occupies.pop (by simp)).run
    exact ⟨_, s, _, rfl, run⟩
  · next at' line =>
    obtain rfl : focus = _ := at'
    obtain rfl : stack = _ := line
    dsimp only at label
    split at label
    · cases label
    · obtain ⟨g, _, same⟩ := Option.map_eq_some_iff.1 label
      cases same
      obtain ⟨s, run⟩ := (occupies.pop (by simp)).run
      exact ⟨_, s, _, rfl, run⟩
  · cases label

end Agent

namespace Config

open State

variable [Inhabited V] {c config : Config V C} {t : TaskId} {x : ExclusiveId}

/-- New payloads are closed. -/
theorem closed_of_does (does : Does c config) (unknown : c.state.exclusives.get? x = none) {exclusive : Exclusive V}
    (found : config.state.exclusives.get? x = some exclusive) : exclusive.inUse = false := by
  have kept {st : State V C} (same : config.state.store = st.store) (before : st.exclusives.get? x = none) :
      exclusive.inUse = false := by
    rw [show config.state.exclusives = st.exclusives from congrArg Prod.fst same, before] at found
    cases found
  have changed {st : State V C} {y : ExclusiveId} {change : Exclusive V → Exclusive V}
      (same : config.state = st.modifyExclusive y change) (before : st.exclusives.get? x = none) :
      exclusive.inUse = false := by
    rw [same, modifyExclusive, Table.get?_modify] at found
    split at found
    · next here => simp [← here, before] at found
    · simp [before] at found
  have added {st : State V C} {new : Exclusive V} (same : config.state.exclusives = st.exclusives.add new)
      (before : st.exclusives.get? x = none) (closed : new.inUse = false) : exclusive.inUse = false := by
    rw [same, Table.get?_add_eq, before] at found
    split at found
    · cases found
      exact closed
    · cases found
  have resumed {u : TaskId} {f : FrameId} {value : V} {error : Option (Error V)} {st : State V C}
      {resumption : Resumption V C} (done : st.resume u f value error = .ok (resumption, config.state))
      (before : st.exclusives.get? x = none) : exclusive.inUse = false := by
    obtain ⟨same, _⟩ | ⟨rfl, a, message, code⟩ := store_resume done
    · exact kept same before
    · obtain ⟨actor, _, _, _, _, _, _, state⟩ := resume_message code done
      exact changed state before
  cases does with
  | @serves st st' request next reply stack served =>
    cases request with
    | newExclusive r payload =>
      obtain rfl : _ = st' := congrArg Prod.snd (pure_ok.1 served)
      exact @added st _ rfl unknown rfl
    | setPayload y payload =>
      obtain rfl : _ = st' := congrArg Prod.snd (pure_ok.1 served)
      exact @changed st _ _ rfl unknown
    | _ => exact kept (store_serve trivial served) unknown
  | @newActor st => exact @added st _ rfl unknown rfl
  | newFrame | registers | passes | rests | hands | returns | lands | unwinds => exact kept rfl unknown
  | @opens st | @closes st => exact @changed st _ _ rfl unknown
  | begins detours busy settled taken begun =>
    refine kept ((Bypasses.beginRun begun).store.trans ?_) unknown
    obtain ⟨s, taken⟩ | ⟨_, rfl⟩ := taken
    · exact (Bypasses.takeReady taken).store
    · rfl
  | resumes found top done => exact resumed done unknown
  | leaps found top path done => exact resumed done unknown
  | cancels done => exact resumed done unknown
  | suspends parked => exact kept ((Bypasses.park parked).store.trans rfl) unknown
  | finishes ends found top link finished => exact kept ((Bypasses.finish finished).store.trans rfl) unknown

/-- A thread closes a payload that it has open, or has it open after the step as well. -/
theorem occupies_of_does (does : Does c config) (occupies : c.agent.Occupies t x) :
    config.agent.Occupies t x ∨ config.state = c.state.closePayload x := by
  cases does with
  | serves | newFrame | newActor | registers | rests | begins => exact .inl (occupies.push [] rfl)
  | passes => exact .inl (occupies.push _ rfl)
  | hands | suspends | returns | finishes | lands | unwinds => exact .inl ((occupies.pop (by simp)).push [] rfl)
  | opens => exact .inl (occupies.push [_, _] rfl)
  | @closes _ y =>
    by_cases same : y = x
    · exact .inr (same ▸ rfl)
    · exact .inl ((occupies.pop (by simpa using same)).push [] rfl)
  | resumes => exact .inl (occupies.push _ (List.append_cons ..))
  | leaps | cancels => exact .inl ((occupies.pop (by simp)).push _ (List.append_cons ..))

/-- A payload that a step opens is open for a task that owns the resource. -/
theorem opened_by_does (does : Does c config) {exclusive exclusive' : Exclusive V}
    (found : c.state.exclusives.get? x = some exclusive) (free : exclusive.inUse = false)
    (found' : config.state.exclusives.get? x = some exclusive') (used : exclusive'.inUse = true)
    (foreseen : ∀ {u inside next}, c.focus = .code (.within x u inside next) → ∃ s, c.agent.runs.head? = some (u, s)) :
    ∃ u, config.agent.Occupies u x ∧ config.state.owner exclusive.resource = some u := by
  have changes (same : config.state.exclusives.get? x = some exclusive) : False := by
    rw [Option.some.inj (found'.symm.trans same), free] at used
    cases used
  obtain ⟨st, focus, stack⟩ := c
  cases treats_of_does found does with
  | leaves same => exact (changes same).elim
  | stores _ _ now | closes _ _ _ now =>
    rw [Option.some.inj (found'.symm.trans now)] at used
    simp [free] at used
  | opens _ cause =>
    obtain ⟨u, inside, next, at'⟩ | @⟨u, f, a, message, actor, after, at', _⟩ := cause
    · obtain rfl : focus = _ := at'
      obtain ⟨s, head⟩ := foreseen rfl
      cases does with
      | passes => exact (changes found).elim
      | begins _ busy => exact absurd rfl (busy _)
      | opens may =>
        obtain ⟨there, same, owns, _⟩ := mayOpen_ok may
        obtain rfl := Option.some.inj (found.symm.trans same)
        exact ⟨u, ⟨_, s, List.suffix_refl _, head⟩, owns_iff.1 owns.symm⟩
    · obtain rfl : focus = _ := at'
      cases does with
      | passes detours => cases detours.1
      | begins detours => cases detours.1
      | @resumes _ _ _ g task _ resumption _ _ _ done =>
        obtain ⟨same, _⟩ | ⟨given, a, message, code⟩ := store_resume done
        · exact (changes ((congrArg (·.1.get? x) same).trans found)).elim
        · rw [given] at done
          obtain ⟨actor, there, _, same, _, owns, rfl, rfl⟩ := resume_message code done
          have here : actor.state = x := by
            by_contra other
            refine changes ?_
            rw [get?_openPayload, if_neg (Ne.symm other)]
            exact found
          subst here
          obtain rfl := Option.some.inj (found.symm.trans same)
          exact ⟨u, ⟨.frame u g after :: stack, .inside g, List.suffix_refl _, rfl⟩, owns⟩

end Config

namespace Crew

open State

variable {c c' : Crew V C} {a : Agent V C} {config : Config V C} {t : TaskId} {x : ExclusiveId}

/-- Whatever payload is open, some thread has it open for the task that owns the resource. -/
def Occupied (c : Crew V C) : Prop := ∀ {x exclusive}, c.state.exclusives.get? x = some exclusive →
  exclusive.inUse = true → ∃ b ∈ c.agents, ∃ t, b.Occupies t x ∧ c.state.owner exclusive.resource = some t

theorem Lulls.occupied (lulls : c.Lulls c') (occupied : c.Occupied) : c'.Occupied := by
  obtain ⟨thread, state⟩ := lulls.state
  intro x exclusive found used
  rw [state] at found ⊢
  obtain ⟨b, member, t, occupies, owns⟩ := occupied found used
  obtain stays | ⟨_, b', member', same⟩ := lulls.forth member
  · exact ⟨b, stays, t, occupies, owns⟩
  · exact ⟨b', member', t, by rwa [Agent.Occupies, same], owns⟩

theorem occupied_initial (parallelism : Nat) : (initial parallelism : Crew V C).Occupied := by
  intro x exclusive found
  simp [initial, State.initial] at found

/-- A task that may open a payload finds it closed, if the task runs elsewhere or its innermost code has not the
payload open. -/
theorem Occupied.closed (occupied : c.Occupied) (sound : c.Sound) (member : a ∈ c.agents) {s : Stage}
    {others : List (TaskId × Stage)} (line : a.runs = (t, s) :: others)
    (apart : (∃ after, a.focus = .trampoline t after) ∨ a.focus.run? = none ∧ x ∉ Activation.payloads a.stack)
    {exclusive : Exclusive V} (found : c.state.exclusives.get? x = some exclusive)
    (owns : c.state.owner exclusive.resource = some t) : exclusive.inUse = false := by
  by_contra used
  obtain ⟨b, member', u, occupies, owns'⟩ := occupied found (by simpa using used)
  obtain rfl := Option.some.inj (owns'.symm.trans owns)
  obtain ⟨s', run⟩ := occupies.run
  obtain rfl : b = a :=
    sound.sole member member' (line ▸ List.mem_cons_self) (List.mem_append_right _ run)
  obtain ⟨focus, stack⟩ := b
  obtain ⟨after, rfl⟩ | ⟨idle, unopened⟩ := apart
  · have runs : Agent.runs ⟨.trampoline u after, stack⟩ = (u, .next) :: stack.filterMap Activation.run? := rfl
    exact sound.ne_of_behind member runs run rfl
  · -- Nothing runs above the place where the payload is open, as the task runs once.
    obtain ⟨post, s', ⟨front, rfl⟩, head⟩ := occupies
    refine unopened (Activation.mem_payloads ?_)
    have behind := List.mem_of_mem_head? head
    have runs : Agent.runs ⟨focus, front ++ .opened x :: post⟩ =
        front.filterMap Activation.run? ++ post.filterMap Activation.run? := by
      simp [Agent.runs, show focus.run? = none from idle, Activation.run?, List.filterMap_cons]
    cases above : front.filterMap Activation.run? with
    | nil => rfl
    | cons first more =>
      rw [runs, above, List.cons_append] at line
      obtain ⟨rfl, rfl⟩ := List.cons.inj line
      exact absurd rfl (sound.ne_of_behind member (by rw [runs, above, List.cons_append])
        (List.mem_append_right more behind))

variable [Inhabited V]

namespace Stepped

/-- Only the run of its owner gives a resource up. -/
theorem owner_stays (turn : c.Stepped a config c') {r : ResourceId} (owns : c.state.owner r = some t)
    (unresumed : ∀ g, a.resumed? c.state ≠ some (t, g)) : config.state.owner r = some t := by
  obtain ⟨g, holds⟩ := turn.sound.warded.owned owns
  obtain ⟨_, effect⟩ := turn.effect
  have stays := effect.holds turn.sound.warded (turn.sound.known_of_onChain holds.1) holds fun _ u label => by
    obtain rfl := turn.sound.warded.apart (.inl holds.1) (.inl (turn.concern_of_resumed label).2)
    exact unresumed g label
  rw [← turn.state]
  exact turn.sound'.warded.owner_of_holds stays

theorem occupied (turn : c.Stepped a config c') (occupied : c.Occupied) : c'.Occupied := by
  intro x exclusive' found' used
  rw [turn.state] at found' ⊢
  cases found : c.state.exclusives.get? x with
  | none => cases used.symm.trans (Config.closed_of_does (c := a.config c.state) turn.does found found')
  | some exclusive =>
    obtain ⟨_, there, same⟩ := Config.resource_of_does (c := a.config c.state) found turn.does
    obtain rfl := Option.some.inj (found'.symm.trans there)
    rw [same]
    cases before : exclusive.inUse with
    | false =>
      obtain ⟨u, occupies, owns⟩ := Config.opened_by_does (c := a.config c.state) turn.does found before found' used
        fun {u inside next} focus => by
          have keeps := turn.careful.2
          rw [show a.focus = _ from focus] at keeps
          exact keeps.1
      exact ⟨config.agent, turn.member', u, occupies, owns⟩
    | true =>
      obtain ⟨b, member, t, occupies, owns⟩ := occupied found before
      have unresumed (g : FrameId) : a.resumed? c.state ≠ some (t, g) := fun label => by
        obtain ⟨s, run⟩ := occupies.run
        obtain ⟨s', others, line⟩ := head_of_map (Agent.head_of_resumed label)
        obtain rfl := turn.sound.sole turn.member member (line ▸ List.mem_cons_self) (List.mem_append_right _ run)
        obtain ⟨_, _, _, line, again⟩ := occupies.unresumed label
        exact turn.sound.ne_of_behind turn.member line again rfl
      have stays := turn.owner_stays owns unresumed
      obtain rfl | other := turn.others member
      · refine ⟨config.agent, turn.member', t, ?_, stays⟩
        refine (Config.occupies_of_does turn.does occupies).resolve_right fun closes => ?_
        rw [closes, closePayload, modifyExclusive, Table.get?_modify_self,
          show (b.config c.state).state.exclusives.get? x = _ from found] at found'
        cases found'
        cases used
      · exact ⟨b, other, t, occupies, stays⟩

end Stepped

end Crew

end Tasking
