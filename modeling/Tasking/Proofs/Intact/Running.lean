import Tasking.Proofs.Intact.Stepped

/-! # Frames that run

The frame that runs for a task is on top of the task's chain, or its thread heads for the frame that it
put there (`Crew.Upright`).  Ready-made frames answer as soon as they are resumed.  They suspend only after
their task has arranged to be woken, and jump only to what they put on top (`Crew.Prompt`).
-/

namespace Tasking

open Picture

variable {V C : Type}

namespace Crew

variable {c c' : Crew V C} {a b : Agent V C} {config : Config V C} {t u : TaskId} {f : FrameId}

/-- The frame that runs for a task is on top, or will suspend or jump to what is. -/
def Upright (c : Crew V C) : Prop := ∀ {t f}, c.stage t = some (.inside f) →
  c.state.top t = some f ∨ ∃ h, c.state.top t = some h ∧ ∃ a ∈ c.agents, a.Leads t h

theorem code?_of_known (known : c.picture.known f) : c.state.code? f ≠ none := by
  obtain ⟨frame, found⟩ := Option.isSome_iff_exists.1 known
  simp [State.code?, found]

/-- A thread works for a task alone. -/
theorem Sound.sole (sound : c.Sound) (member : a ∈ c.agents) (member' : b ∈ c.agents) {s s' : Stage}
    (run : (t, s) ∈ a.runs) (run' : (t, s') ∈ b.runs) : b = a := by
  obtain ⟨st, agents⟩ := c
  obtain ⟨before, after, rfl⟩ := List.append_of_mem member
  simp only [List.mem_append, List.mem_cons] at member'
  by_contra other
  have elsewhere : b ∈ before ++ after := by
    rw [List.mem_append]
    tauto
  exact sound.foreign elsewhere run' s run

theorem Lulls.upright (lulls : c.Lulls c') (upright : c.Upright) : c'.Upright := by
  intro t f inside
  rw [lulls.stage] at inside
  obtain ⟨thread, state⟩ := lulls.state
  rw [state]
  refine (upright inside).imp_right fun ⟨h, top, a, member, leads⟩ => ⟨h, top, a, ?_, leads⟩
  obtain ⟨program, focus, _⟩ := leads.2
  exact (lulls.forth member).resolve_right fun gone => gone.1 program focus

theorem upright_initial (parallelism : Nat) : (initial parallelism : Crew V C).Upright := by
  intro t f inside
  cases inside

namespace Stepped

variable [Inhabited V]

theorem upright_serves {request : Request V C} {next : request.Reply → Program V C} {reply : request.Reply}
    {stack : List (Activation V C)} {st' : State V C}
    (turn : c.Stepped ⟨.code (.ask request next), stack⟩ ⟨st', .code (next reply), stack⟩ c')
    (served : c.state.serve request = .ok (reply, st'))
    (run : (t, .inside f) ∈ Agent.runs ⟨.code (.ask request next), stack⟩)
    (before : c.state.top t = some f ∨ ∃ h, c.state.top t = some h ∧
      Agent.Leads ⟨.code (.ask request next), stack⟩ t h) :
    st'.top t = some f ∨ ∃ h, st'.top t = some h ∧ Agent.Leads ⟨.code (next reply), stack⟩ t h := by
  have known : (c.state.tasks.get? t).isSome = true := by
    obtain ⟨task, found, _⟩ := Orderly.get?_of_run turn.sound turn.member run
    simp [found]
  have kept (top : st'.top t = c.state.top t) : st'.top t = some f ∨
      ∃ h, st'.top t = some h ∧ Agent.Leads ⟨.code (next reply), stack⟩ t h := by
    rw [top]
    refine before.imp_right fun ⟨h, first, leads⟩ => ⟨h, first, leads.1, ?_⟩
    exact (Agent.heads_ask.1 leads.2).2 reply
  obtain ⟨u, g, rfl, redirects⟩ | ⟨g, k, rfl, tops, _⟩ | ⟨top, _⟩ :=
    State.chains_serve (turn.careful.guarded.unmoving request next rfl) known served
  · by_cases same : t = u
    · subst same
      have permits : c.picture.Permits (C := C) (Agent.runs ⟨.code (.ask (.pause t g) next), stack⟩).head?
        (.pause t g) := turn.careful.guarded
      obtain ⟨s, head, _⟩ := permits
      -- The frame that runs for the task put another one on top.
      obtain rfl : s = .inside f := by
        have stage := turn.was (List.mem_of_mem_head? head)
        exact Option.some.inj (stage.symm.trans (turn.was run))
      exact .inr ⟨g, redirects.top, turn.careful.consents.2 f head⟩
    · exact kept (redirects.others same)
  · exact kept (tops t)
  · exact kept top

/-- The frame that runs for the task whose run a step goes on with. -/
theorem upright_own (turn : c.Stepped a config c') (mine : (a.config c.state).concern config = some t)
    (run : (t, .inside f) ∈ config.agent.runs)
    (before : (t, .inside f) ∈ a.runs → c.state.top t = some f ∨
      ∃ h, c.state.top t = some h ∧ a.Leads t h) :
    config.state.top t = some f ∨ ∃ h, config.state.top t = some h ∧ config.agent.Leads t h := by
  obtain ⟨focus, stack⟩ := a
  have goesOn {b : Agent V C} (leads : ∀ {h}, Agent.Leads ⟨focus, stack⟩ t h → b.Leads t h)
      (run : (t, .inside f) ∈ Agent.runs ⟨focus, stack⟩) :
      c.state.top t = some f ∨ ∃ h, c.state.top t = some h ∧ b.Leads t h := by
    obtain first | ⟨h, top, led⟩ := before run
    · exact .inl first
    · exact .inr ⟨h, top, leads led⟩
  cases turn.does with
  | serves served => exact turn.upright_serves served run (before run)
  | newFrame => exact goesOn (fun leads => ⟨leads.1, Agent.heads_newFrame.1 leads.2 _⟩) run
  | newActor => exact goesOn (fun leads => ⟨leads.1, Agent.heads_newActor.1 leads.2 _⟩) run
  | registers => exact goesOn (fun leads => ⟨leads.1, Agent.heads_register.1 leads.2 _⟩) run
  | passes detours idle calls =>
    have mine' : (t, .inside f) ∈ Agent.runs ⟨focus, stack⟩ := by
      refine List.mem_append_right _ ?_
      simpa [Config.agent, Agent.runs, idle, Activation.run?_calls calls] using run
    refine .inl ((before mine').resolve_right ?_)
    rintro ⟨h, _, leads⟩
    exact Agent.not_heads_of_detours detours leads.2
  | rests => exact before run
  | hands => exact goesOn (fun leads => ⟨leads.1, Agent.heads_call.1 leads.2⟩) run
  | opens =>
    refine .inl ((before run).resolve_right ?_)
    rintro ⟨h, _, leads⟩
    exact Agent.not_heads_of_detours (Focus.detours_code (by simp) fun _ _ => id) leads.2
  | closes => exact goesOn (fun leads => ⟨leads.1, Agent.heads_opened.1 leads.2⟩) run
  | begins detours busy =>
    rw [Config.concern_of_detours detours busy] at mine
    obtain rfl := Option.some.inj mine
    exact absurd (turn.runs_once run (Agent.next_mem_runs ..)) (by simp)
  | @resumes _ st' u g task after resumption _ found top resumed =>
    obtain rfl : u = t := Option.some.inj mine
    obtain rfl : f = g := by
      simpa using turn.runs_once run (Agent.resumed_mem_runs (x := .frame u g after) rfl ..)
    have unloaded : (c.state.unloaded u).top u = some f :=
      (State.keepsChains_unloaded c.state u).top u |>.trans ((State.top_of_get? found).trans top)
    obtain stays | ⟨_, body, value, rfl, calls⟩ := State.chains_resume resumed
    · exact .inl ((stays.top u).trans unloaded)
    · exact .inr ⟨body, (calls.top u).trans (if_pos rfl), ⟨f, rfl⟩, Agent.heads_frame.2 (.inr ⟨value, rfl⟩)⟩
  | suspends | finishes =>
    obtain rfl := Option.some.inj mine
    exact absurd run (turn.ended rfl rfl (turn.settled List.mem_cons_self) _)
  | returns | lands =>
    obtain rfl := Option.some.inj mine
    exact absurd (turn.runs_once run (Agent.next_mem_runs ..)) (by simp)
  | leaps | cancels =>
    obtain rfl := Option.some.inj mine
    exact absurd (turn.runs_once run (Agent.resumed_mem_runs rfl ..)) (by simp)
  | unwinds =>
    obtain rfl := Option.some.inj mine
    obtain ⟨next, rfl, _⟩ := turn.onwards List.mem_cons_self
    exact absurd (turn.runs_once run (Agent.next_mem_runs ..)) (by simp)

/-- Steps keep the frames that run where they should be. -/
theorem upright (turn : c.Stepped a config c') (upright : c.Upright) : c'.Upright := by
  intro t f inside
  rw [turn.state]
  by_cases mine : (a.config c.state).concern config = some t
  · have own := turn.upright_own mine (turn.run_of_stage mine inside) fun run => by
      refine (upright (turn.was run)).imp_right fun ⟨h, top, b, member, leads⟩ => ⟨h, top, ?_⟩
      obtain ⟨g, head⟩ := leads.1
      exact turn.sound.sole turn.member member run (List.mem_of_mem_head? head) ▸ leads
    exact own.imp_right fun ⟨h, top, leads⟩ => ⟨h, top, _, turn.member', leads⟩
  · have before : c.stage t = some (.inside f) := (turn.stage (Ne.symm mine)).symm.trans inside
    have known : (c.state.tasks.get? t).isSome = true := by
      obtain ⟨task, found, _⟩ := Option.map_eq_some_iff.1 (turn.sound.life_of_stage before)
      simp [found]
    rw [turn.top_other (Ne.symm mine) known]
    refine (upright before).imp_right fun ⟨h, top, b, member, leads⟩ => ⟨h, top, b, ?_, leads⟩
    refine (turn.others member).resolve_left ?_
    rintro rfl
    obtain ⟨⟨g, head⟩, program, focus, _⟩ := leads
    obtain ⟨_, stack⟩ := b
    obtain rfl : _ = _ := focus
    exact mine (congrArg (Option.map Prod.fst) head)

end Stepped

end Crew

/-! ## Frames that answer at once -/

namespace State

variable {st st' : State V C} {t : TaskId} {f : FrameId} {task : Task V}

theorem Balanced.waits_resumeGuard (balanced : st.Balanced) (found : st.tasks.get? t = some task)
    (live : task.life = .running) (calm : task.arranged = false) {r : ResourceId} {phase : Phase V} {value : V}
    {error : Option (Error V)} (done : st.resumeGuard t f r phase value error = .ok (.suspended, st')) :
    ∃ task', st'.tasks.get? t = some task' ∧ task'.arranged = true := by
  have recoded := balanced.setCode f (.guard r .released)
  cases phase with
  | start body =>
    simp only [State.resumeGuard] at done
    split at done
    · simp [pure_ok] at done
    · simp only [bind_ok] at done
      obtain ⟨⟨granted, st₁⟩, asked, done⟩ := done
      dsimp only at done
      split at done
      · exact absurd (@callFrame_ok _ _ _ _ (fun _ => none) _ _ _ _ _ done).1 (by simp)
      · obtain rfl : _ = st' := (Prod.mk.inj (pure_ok.1 done)).2
        obtain ⟨_, becomes⟩ := (recoded.acquire (t := t) found live calm asked).2.resolve_left (by simp)
        exact ⟨_, becomes.self, by simp [Task.arranged]⟩
      · simp [pure_ok] at done
  | waiting body kept =>
    simp only [State.resumeGuard, check_ok] at done
    exact absurd (@callFrame_ok _ _ _ _ (fun _ => none) _ _ _ _ _ done.2.2).1 (by simp)
  | held =>
    simp only [State.resumeGuard, bind_ok, pure_ok, Prod.mk.injEq] at done
    obtain ⟨_, _, forwards, _⟩ := done
    cases error <;> simp [Answer.forward] at forwards
  | released => simp [State.resumeGuard] at done

theorem waits_resumeJoin (found : st.tasks.get? t = some task) {child : TaskId} {parked : Bool}
    {error : Option (Error V)} (done : st.resumeJoin t f child parked error = .ok (.suspended, st')) :
    ∃ task', st'.tasks.get? t = some task' ∧ task'.waiting = some (.task child) := by
  have ended (outcome : Outcome V) : answerOf outcome ≠ .suspended := by cases outcome <;> simp [answerOf]
  unfold State.resumeJoin at done
  split at done
  · simp [pure_ok] at done
  · split at done
    · simp only [bind_ok, task_ok] at done
      obtain ⟨awaited, _, done⟩ := done
      split at done
      · exact absurd (congrArg Prod.fst (pure_ok.1 done)) (ended _)
      · simp at done
    · simp only [bind_ok] at done
      obtain ⟨⟨reply, st₁⟩, waited, done⟩ := done
      obtain ⟨awaited, known, ⟨rfl, kept, rfl⟩ | ⟨_, ⟨refusal, rfl, _, rfl⟩ | ⟨rfl, _, rfl⟩⟩⟩ := waitFor_ok waited
      · cases outcome : awaited.outcome with
        | none => exact absurd outcome kept
        | some outcome' =>
          simp only [outcome, pure_ok] at done
          exact absurd (congrArg Prod.fst done) (ended _)
      · simp [pure_ok] at done
      · obtain rfl : _ = st' := (Prod.mk.inj (pure_ok.1 done)).2
        refine ⟨_, (get?_joined found child t).trans (by rw [if_pos rfl]; rfl), ?_⟩
        dsimp only
        split <;> rfl

/-- A task has arranged to be woken if its frame suspends, and is at the frame that its frame jumps to. -/
structure Honours (st : State V C) (t : TaskId) (answer : Answer V) : Prop where
  suspends : answer = .suspended → ∃ task, st.tasks.get? t = some task ∧ task.arranged = true
  jumps : ∀ {target value}, answer = .jump target value → st.top t = some target

/-- A ready-made frame that jumps has put its target on top. -/
theorem top_of_readyMade {value kept : V} {error : Option (Error V)} {target : FrameId}
    (done : st.resume t f value error = .ok (⟨.answer (.jump target kept), none⟩, st')) (made : st.ReadyMade f) :
    st'.top t = some target := by
  obtain ⟨code, here, ready⟩ := made
  cases code with
  | host | message => cases ready
  | guard r phase =>
    obtain ⟨answer, same, heeds⟩ := heeds_resume here done
    cases heeds with
    | calls _ calls =>
      cases same
      exact (calls.top t).trans (if_pos rfl)
    | letsGo => cases error <;> cases same
    | parks | throws => cases same
  | join child parked =>
    cases stirs_of_resume done with
    | runs code | delivers code | turns code | frees code => cases code.symm.trans here
    | passes _ final => cases final

/-- A ready-made frame answers as soon as it is resumed, and has seen to what it answers. -/
theorem Balanced.resume_readyMade (balanced : st.Balanced) (found : st.tasks.get? t = some task)
    (live : task.life = .running) (calm : task.arranged = false) {value : V} {error : Option (Error V)}
    {resumption : Resumption V C} (done : st.resume t f value error = .ok (resumption, st')) (made : st.ReadyMade f) :
    ∃ answer, resumption = ⟨.answer answer, none⟩ ∧ st'.Honours t answer := by
  suffices answers : ∃ answer, resumption = ⟨.answer answer, none⟩ ∧
      (answer = .suspended → ∃ task', st'.tasks.get? t = some task' ∧ task'.arranged = true) by
    obtain ⟨answer, rfl, arranged⟩ := answers
    refine ⟨answer, rfl, arranged, fun {target kept} jumps => ?_⟩
    exact top_of_readyMade (jumps ▸ done) made
  simp only [State.resume, bind_ok, frame_ok] at done
  obtain ⟨frame, known, done⟩ := done
  obtain ⟨code, here, ready⟩ := made
  obtain rfl : frame.code = code := by simpa [code?, known] using here
  split at done
  · next code => simp [code, Frame.Code.isReadyMade] at ready
  · simp only [bind_ok, pure_ok, Prod.mk.injEq] at done
    obtain ⟨⟨answer, st₁⟩, resumed, rfl, rfl⟩ := done
    refine ⟨answer, rfl, ?_⟩
    rintro rfl
    exact balanced.waits_resumeGuard found live calm resumed
  · simp only [bind_ok, pure_ok, Prod.mk.injEq] at done
    obtain ⟨⟨answer, st₁⟩, resumed, rfl, rfl⟩ := done
    refine ⟨answer, rfl, ?_⟩
    rintro rfl
    obtain ⟨task', found', waits⟩ := waits_resumeJoin found resumed
    exact ⟨task', found', by simp [Task.arranged, waits]⟩
  · next code => simp [code, Frame.Code.isReadyMade] at ready

/-- What a frame is does not change as it is resumed. -/
theorem Stirs.readyMade {resumption : Resumption V C} (stirs : Stirs st f resumption st') (made : st'.ReadyMade f) :
    st.ReadyMade f := by
  have delivered (a : ActorId) (message : V) (codes : st'.code? = Function.update st.code? f
      (some (.message a message true))) : False := by
    obtain ⟨code, here, ready⟩ := made
    obtain rfl : _ = code := by simpa [codes] using here
    cases ready
  cases stirs with
  | runs code frames | passes code final frames =>
    obtain ⟨code', here, ready⟩ := made
    exact ⟨code', (code?_of_frames frames f).symm.trans here, ready⟩
  | delivers code frames => exact (delivered _ _ (codes_of_setCode code frames)).elim
  | turns code | frees code => exact ⟨_, code, rfl⟩
  | parks code => exact ⟨_, code, rfl⟩

end State

namespace Crew

variable [Inhabited V] {c c' : Crew V C} {a b : Agent V C} {config : Config V C} {t u : TaskId} {f : FrameId}

/-- Ready-made frames have answered, and have seen to what they answered. -/
def Prompt (c : Crew V C) : Prop := ∀ a ∈ c.agents, ∀ {t f after}, .frame t f after ∈ a.stack →
  c.state.ReadyMade f → ∃ answer rest, a = ⟨.code (.answer answer), .frame t f after :: rest⟩ ∧
    c.state.Honours t answer

omit [Inhabited V] in
theorem Lulls.prompt (lulls : c.Lulls c') (prompt : c.Prompt) : c'.Prompt := by
  obtain ⟨thread, state⟩ := lulls.state
  intro a member t f after inside made
  rw [state] at made ⊢
  obtain old | ⟨_, empty | ⟨focus, busy, _, member'⟩⟩ := lulls.back member
  · obtain ⟨answer, rest, same, honours⟩ := prompt a old inside made
    exact ⟨answer, rest, same, honours.suspends, honours.jumps⟩
  · simp [empty] at inside
  · obtain ⟨answer, rest, same, _⟩ := prompt _ member' inside made
    exact absurd (congrArg Agent.focus same) (busy _)

omit [Inhabited V] in
theorem prompt_initial (parallelism : Nat) : (initial parallelism : Crew V C).Prompt := by
  intro a member
  cases member

namespace Stepped

/-- What a frame in use is does not change. -/
theorem readyMade (turn : c.Stepped a config c') (known : c.picture.known f) (made : config.state.ReadyMade f) :
    c.state.ReadyMade f := by
  cases Config.code?_of_does (c := a.config c.state) turn.sound.warded.acyclic turn.does f with
  | same code =>
    obtain ⟨code', here, ready⟩ := made
    exact ⟨code', code.symm.trans here, ready⟩
  | resumed label stirs => exact stirs.readyMade made
  | made unused => exact absurd unused (code?_of_known known)

theorem known_of_frame (turn : c.Stepped a config c') (member : b ∈ c.agents) {after : Focus V C}
    (inside : .frame t f after ∈ b.stack) : c.picture.known f :=
  (turn.sound.warded.inside (turn.sound.stage_of_run member (Agent.mem_runs inside))).1

/-- A ready-made frame that the thread runs has just answered. -/
theorem answers (turn : c.Stepped a config c') (prompt : c.Prompt) {after : Focus V C}
    (inside : .frame t f after ∈ a.stack) (made : config.state.ReadyMade f) :
    ∃ answer rest, a = ⟨.code (.answer answer), .frame t f after :: rest⟩ := by
  obtain ⟨answer, rest, same, _⟩ :=
    prompt a turn.member inside (turn.readyMade (turn.known_of_frame turn.member inside) made)
  exact ⟨answer, rest, same⟩

/-- No ready-made frame waits behind something. -/
theorem not_readyMade (turn : c.Stepped a config c') (prompt : c.Prompt) {focus : Focus V C} {x : Activation V C}
    {stack : List (Activation V C)} (line : a = ⟨focus, x :: stack⟩) {after : Focus V C}
    (inside : .frame t f after ∈ stack) : ¬ config.state.ReadyMade f := by
  intro made
  subst line
  obtain ⟨answer, rest, same⟩ := turn.answers prompt (List.mem_cons_of_mem _ inside) made
  obtain ⟨rfl, rfl, rfl⟩ : focus = _ ∧ x = _ ∧ stack = rest := by simpa using same
  have again : (t, .inside f) ∈ stack.filterMap Activation.run? := List.mem_filterMap.2 ⟨_, inside, rfl⟩
  exact turn.sound.ne_of_behind turn.member (s := .inside f) rfl again rfl

theorem prompt_own (turn : c.Stepped a config c') (prompt : c.Prompt) {after : Focus V C}
    (inside : .frame t f after ∈ config.stack) (made : config.state.ReadyMade f) :
    ∃ answer rest, config.agent = ⟨.code (.answer answer), .frame t f after :: rest⟩ ∧
      config.state.Honours t answer := by
  obtain ⟨focus, stack⟩ := a
  have behind (focus' : Focus V C) (x : Activation V C) (rest : List (Activation V C))
      (line : (⟨focus, stack⟩ : Agent V C) = ⟨focus', x :: rest⟩) (inside : .frame t f after ∈ rest) : False :=
    turn.not_readyMade prompt line inside made
  have busy (inside : .frame t f after ∈ stack) (focus' : ∀ answer, focus ≠ .code (.answer answer)) : False := by
    obtain ⟨answer, _, same⟩ := turn.answers prompt inside made
    exact focus' answer (congrArg Agent.focus same)
  cases turn.does with
  | serves | newFrame | newActor | registers => exact (busy inside (by simp)).elim
  | passes detours idle calls =>
    obtain call | inside := List.mem_append.1 inside
    · exact (calls _ call).elim
    · exact (busy inside fun answer same => (detours.2 _ same).1 answer rfl).elim
  | rests => cases inside
  | hands => exact (behind _ _ _ rfl inside).elim
  | opens =>
    simp only [List.mem_cons, reduceCtorEq, false_or] at inside
    exact (busy inside (by simp)).elim
  | closes => exact (behind _ _ _ rfl inside).elim
  | begins detours idle => exact (busy inside fun answer => idle _).elim
  | @resumes _ st' u g task after' resumption _ found top resumed =>
    obtain opened | new | inside := by simpa only [List.mem_append, List.mem_cons] using inside
    · simp at opened
    · obtain ⟨rfl, rfl, rfl⟩ : t = u ∧ f = g ∧ after = after' := by simpa using new
      have first : c.state.top t = some f := (State.top_of_get? found).trans top
      obtain ⟨_, found', live, calm⟩ := turn.calm_of_resumed (t := t) (f := f) (by simp [Agent.resumed?, first])
      obtain rfl := Option.some.inj (found.symm.trans found')
      have balanced : (c.state.unloaded t).Balanced := turn.orderly.balanced.modifyTask found fun _ => rfl
      obtain ⟨answer, rfl, honours⟩ := balanced.resume_readyMade
        (State.becomes_modifyTask found fun task => { task with value := default, error := none }).self
        live calm resumed (turn.readyMade (turn.sound.warded.top_known first) made)
      exact ⟨answer, stack, rfl, honours⟩
    · exact (busy inside (by simp)).elim
  | suspends | returns | finishes | lands | unwinds => exact (behind _ _ _ rfl inside).elim
  | leaps | cancels =>
    obtain opened | new | inside := by simpa only [List.mem_append, List.mem_cons] using inside
    · simp at opened
    · cases new
    · exact (behind _ _ _ rfl inside).elim

theorem prompt (turn : c.Stepped a config c') (prompt : c.Prompt) : c'.Prompt := by
  intro b member t f after inside made
  rw [turn.state] at made ⊢
  obtain rfl | ⟨old, apart⟩ := turn.back member
  · exact turn.prompt_own prompt inside made
  · have run := Agent.mem_runs inside
    obtain ⟨answer, rest, same, honours⟩ :=
      prompt b old inside (turn.readyMade (turn.known_of_frame old inside) made)
    -- A task that runs elsewhere stays as it is.
    obtain ⟨task, found, live⟩ := Orderly.get?_of_run turn.sound old run
    obtain ⟨task', found', alike⟩ := turn.spares.alike (apart run) found
    refine ⟨answer, rest, same, fun suspends => ?_, fun jumps => ?_⟩
    · obtain ⟨_, there, waits⟩ := honours.suspends suspends
      obtain rfl := Option.some.inj (found.symm.trans there)
      exact ⟨task', found', (alike.arranged live).trans waits⟩
    · exact (turn.top_other (apart run) (by simp [found])).trans (honours.jumps jumps)

end Stepped

end Crew

end Tasking
