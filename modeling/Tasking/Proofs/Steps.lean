import Tasking.Proofs.Progress

/-! # Steps of guarded programs

Every step that guarded programs may make keeps a crew sound.  There is one lemma for each thing
that a thread can be about to do; `Agent.goes` puts them together, and `Crew.Run.sound` is what
follows for a whole run.
-/

namespace Tasking

open Picture

variable {V C : Type}

namespace Agent

variable {p : Picture V} {a : Agent V C}

/-- Unless a thread has an answer to deliver, no guard waits for one on it. -/
theorem Steady.plain (steady : a.Steady p) (busy : ∀ answer, a.focus ≠ .code (.answer answer))
    {t : TaskId} {f : FrameId} {after : Focus V C} (member : .frame t f after ∈ a.stack) :
    p.guard f = none := by
  cases line : a.stack with
  | nil => simp [line] at member
  | cons x behind =>
    rw [line] at member
    rcases List.mem_cons.1 member with rfl | later
    · by_contra guards
      obtain ⟨program, focus, awaits⟩ := steady.first line guards
      obtain ⟨⟨r, phase⟩, guard⟩ := Option.ne_none_iff_exists'.1 guards
      have answers := awaits guard
      cases phase with
      | start => exact answers
      | waiting => exact busy _ (focus.trans (congrArg _ answers))
      | held =>
        obtain ⟨body, value, rfl, _⟩ := answers
        exact busy _ focus
      | released =>
        rcases answers with ⟨value, rfl⟩ | ⟨error, rfl⟩
        · exact busy _ focus
        · exact busy _ focus
    · exact steady.later line later

/-- A thread is steady if no guard waits for an answer on it. -/
theorem Steady.of_plain {focus : Focus V C} {stack : List (Activation V C)} (settled : focus.Settled)
    (all : ∀ x ∈ stack, x.Settled)
    (plain : ∀ t f after, .frame t f after ∈ stack → p.guard f = none) :
    Agent.Steady p ⟨focus, stack⟩ where
  focus := settled
  stack := all
  first {t f after behind} line guards :=
    absurd (plain t f after (by simp [show stack = _ from line])) guards
  later {x behind t f after} line member :=
    plain t f after (by simp [show stack = _ from line, member])

@[simp] theorem runs_code (program : Program V C) (stack : List (Activation V C)) :
    Agent.runs ⟨.code program, stack⟩ = stack.filterMap Activation.run? := rfl

end Agent

namespace Crew.Sound

variable {c : Crew V C} {a : Agent V C} {config : Config V C}

theorem stage_of_run (sound : c.Sound) (member : a ∈ c.agents) {t : TaskId} {s : Stage}
    (run : (t, s) ∈ a.runs) : c.stage t = some s :=
  (stage_eq_some_iff sound.distinct).2 (mem_runs member run)

theorem life_of_stage (sound : c.Sound) {t : TaskId} {s : Stage} (stage : c.stage t = some s) :
    c.state.life t = some .running :=
  sound.running ((stage_eq_some_iff sound.distinct).1 stage)

theorem stage_of_life (sound : c.Sound) {t : TaskId} (idle : c.state.life t ≠ some .running) :
    c.stage t = none := by
  cases stage : c.stage t with
  | none => rfl
  | some s => exact absurd (sound.life_of_stage stage) idle

/-- A thread works for a task in one place only. -/
theorem ne_of_behind (sound : c.Sound) (member : a ∈ c.agents) {t u : TaskId} {s s' : Stage}
    {others : List (TaskId × Stage)} (line : a.runs = (t, s) :: others) (behind : (u, s') ∈ others) :
    u ≠ t := by
  obtain ⟨st, agents⟩ := c
  obtain ⟨before, after, rfl⟩ := List.append_of_mem member
  have distinct := sound.distinct
  rw [(runs_append.map Prod.fst).nodup_iff, List.map_append] at distinct
  have own := (List.nodup_append.1 distinct).1
  rw [line, List.map_cons, List.nodup_cons] at own
  rintro rfl
  exact own.1 (List.mem_map.2 ⟨_, behind, rfl⟩)

theorem unborn (sound : c.Sound) : c.stage c.state.tasks.next = none :=
  sound.stage_of_life (by simp [State.life])

/-- A step that leaves all runs where they are, on a thread on which no guard waits for an answer. -/
theorem still (sound : c.Sound) (member : a ∈ c.agents) (label : a.resumed? c.state = none)
    (serves : State.Serves (a.runs.head?.map Prod.fst) c.stage c.state config.state)
    (runs : config.agent.runs = a.runs) (settled : config.focus.Settled)
    (stack : ∀ x ∈ config.stack, x.Settled)
    (plain : ∀ t f after, .frame t f after ∈ config.stack →
      .frame t f after ∈ a.stack ∧ c.picture.guard f = none) : a.Goes c config := by
  refine .still runs label (.neutral serves.neutral) serves.keeps serves.ended ?_
  refine .of_plain settled stack fun t f after inside => ?_
  obtain ⟨old, none'⟩ := plain t f after inside
  have stage := sound.stage_of_run member (Agent.mem_runs old)
  exact (serves.neutral.guard (sound.warded.inside stage).1).trans none'

/-- A step of running code that makes no answer. -/
theorem still_code (sound : c.Sound) {program : Program V C} {next : Focus V C}
    {stack : List (Activation V C)} {st' : State V C} (extra : List (Activation V C))
    (member : ⟨.code program, stack⟩ ∈ c.agents)
    (busy : ∀ answer, program ≠ .answer answer) (idle : next.run? = none)
    (serves : State.Serves ((stack.filterMap Activation.run?).head?.map Prod.fst) c.stage c.state st')
    (calls : ∀ x ∈ extra, x.run? = none ∧ x.Settled) :
    Agent.Goes c ⟨.code program, stack⟩ ⟨st', next, extra ++ stack⟩ := by
  have steady := sound.steady _ member
  have noFrame : ∀ t f after, .frame t f after ∉ extra := fun t f after inside => by
    simpa [Activation.run?] using (calls _ inside).1
  have noRuns : extra.filterMap Activation.run? = [] :=
    List.filterMap_eq_nil_iff.2 fun x inside => (calls x inside).1
  refine sound.still member ?_ serves ?_ ?_ ?_ ?_
  · cases program with
    | answer answer => exact absurd rfl (busy answer)
    | _ => rfl
  · simp only [Config.agent, Agent.runs, idle, List.filterMap_append, noRuns]
    rfl
  · cases next with
    | trampoline => simp [Focus.run?] at idle
    | _ => trivial
  · intro x inside
    rcases List.mem_append.1 inside with new | old
    · exact (calls x new).2
    · exact steady.stack x old
  · intro t f after inside
    have old := (List.mem_append.1 inside).resolve_left (noFrame t f after)
    refine ⟨old, steady.plain (fun answer same => ?_) old⟩
    exact busy answer (by simpa using same)

theorem ask [Inhabited V] (sound : c.Sound) {request : Request V C} {next : request.Reply → Program V C}
    {stack : List (Activation V C)} (member : ⟨.code (.ask request next), stack⟩ ∈ c.agents)
    (permitted : c.picture.Permits (stack.filterMap Activation.run?).head? request)
    (step : (⟨c.state, .code (.ask request next), stack⟩ : Config V C).step = .ok config) :
    Agent.Goes c ⟨.code (.ask request next), stack⟩ config := by
  have steady := sound.steady _ member
  simp only [Config.step, Config.stepCode, bind_ok, pure_ok] at step
  obtain ⟨⟨reply, st'⟩, served, rfl⟩ := step
  refine sound.still_code [] member (by simp) rfl ?_ (by simp)
  refine State.serve_effect sound.warded sound.unborn (fun {t s} first => ?_) permitted served
  have run : (t, s) ∈ Agent.runs (⟨.code (.ask request next), stack⟩ : Agent V C) :=
    List.mem_of_mem_head? first
  have stage := sound.stage_of_run member run
  obtain ⟨x, inside, same⟩ := List.mem_filterMap.1 (show _ ∈ stack.filterMap _ from run)
  refine ⟨stage, sound.life_of_stage stage, ?_, ?_⟩
  · rintro rfl
    cases x <;> simp [Activation.run?] at same
  · rintro g rfl
    cases x with
    | frame t' f after =>
      obtain ⟨rfl, rfl⟩ : t' = t ∧ f = g := by simpa [Activation.run?] using same
      exact steady.plain (by simp) inside
    | _ => simp [Activation.run?] at same

/-- Programs that only create something, or call something, leave all runs where they are. -/
theorem code [Inhabited V] (sound : c.Sound) {program : Program V C} {stack : List (Activation V C)}
    (member : ⟨.code program, stack⟩ ∈ c.agents) (busy : ∀ answer, program ≠ .answer answer)
    (permitted : c.Guarded ⟨.code program, stack⟩)
    (step : (⟨c.state, .code program, stack⟩ : Config V C).step = .ok config) :
    Agent.Goes c ⟨.code program, stack⟩ config := by
  cases program with
  | answer answer => exact absurd rfl (busy answer)
  | unwind => exact permitted.elim
  | ask request next => exact sound.ask member permitted step
  | newFrame label body next =>
    simp only [Config.step, Config.stepCode, pure_ok] at step
    subst step
    exact sound.still_code [] member (by simp) rfl
      (State.serves_addFrame (by simp [Frame.Code.guard?])) (by simp)
  | newActor first handler next =>
    simp only [Config.step, Config.stepCode, pure_ok] at step
    subst step
    exact sound.still_code [] member (by simp) rfl (State.serves_addActor first handler)
      (by simp)
  | register g name native next =>
    simp only [Config.step, Config.stepCode, State.register, bind_ok, pure_ok] at step
    obtain ⟨⟨reply, st'⟩, ⟨registry, _, registered⟩, rfl⟩ := step
    simp only [Prod.mk.injEq] at registered
    obtain ⟨_, rfl⟩ := registered
    exact sound.still_code [] member (by simp) rfl
      (State.Quiet.serves (.of_rest rfl rfl rfl rfl)) (by simp)
  | callNative g name context arguments next =>
    simp only [Config.step, Config.stepCode, bind_ok] at step
    obtain ⟨registry, _, step⟩ := step
    split at step
    · obtain rfl := pure_ok.1 step
      exact sound.still_code [] member (by simp) rfl (.refl _) (by simp)
    · obtain rfl := pure_ok.1 step
      exact sound.still_code [_] member (by simp) rfl (.refl _)
        (by simp [Activation.run?, Activation.Settled])
  | drive s next =>
    obtain rfl := pure_ok.1 step
    exact sound.still_code [] member (by simp) rfl (.refl _) (by simp)
  | await condition limit next =>
    obtain rfl := pure_ok.1 step
    exact sound.still_code [] member (by simp) rfl (.refl _) (by simp)
  | within x t inside next =>
    simp only [Config.step, Config.stepCode, bind_ok] at step
    obtain ⟨may, _, step⟩ := step
    split at step
    · obtain rfl := pure_ok.1 step
      refine sound.still_code [_, _] member (by simp) rfl
        (State.Quiet.serves (.modifyExclusive ..)) (by simp [Activation.run?, Activation.Settled])
    · obtain rfl := pure_ok.1 step
      exact sound.still_code [] member (by simp) rfl (.refl _) (by simp)

/-! ## Resuming a frame -/

theorem resumeFrame_ok {st : State V C} {focus : Focus V C} {stack : List (Activation V C)}
    {t : TaskId} {f : FrameId} {value : V} {error : Option (Error V)}
    {activation : Activation V C}
    (done : (⟨st, focus, stack⟩ : Config V C).resumeFrame t f value error activation = .ok config) :
    ∃ resumption st', st.resume t f value error = .ok (resumption, st') ∧
      config = ⟨st', .code resumption.program,
        (resumption.opened.map .opened).toList ++ activation :: stack⟩ := by
  simp only [Config.resumeFrame, bind_ok] at done
  obtain ⟨⟨resumption, st'⟩, resumed, done⟩ := done
  refine ⟨resumption, st', resumed, ?_⟩
  split at done
  · next x opened => simp_all [pure_ok, Config.push]
  · next closed => simp_all [pure_ok]

/-- A thread that has just resumed a frame is steady. -/
theorem steady_resumed {p : Picture V} {t : TaskId} {f : FrameId} {after : Focus V C}
    {stack : List (Activation V C)} {resumption : Resumption V C} (settled : after.run? = none)
    (all : ∀ x ∈ stack, x.Settled)
    (plain : ∀ u g after, .frame u g after ∈ stack → p.guard g = none)
    (awaits : p.Awaits t f resumption.program)
    (closed : p.guard f ≠ none → resumption.opened = none) :
    Agent.Steady p ⟨.code resumption.program,
      (resumption.opened.map Activation.opened).toList ++ .frame t f after :: stack⟩ := by
  by_cases guards : p.guard f = none
  · refine .of_plain trivial (fun x inside => ?_) fun u g after' inside => ?_
    · rcases List.mem_append.1 inside with new | old
      · obtain ⟨y, _, rfl⟩ : ∃ y, resumption.opened = some y ∧ .opened y = x := by simpa using new
        trivial
      · rcases List.mem_cons.1 old with rfl | behind
        · exact settled
        · exact all x behind
    · rcases List.mem_append.1 inside with new | old
      · simp at new
      · rcases List.mem_cons.1 old with same | behind
        · obtain ⟨rfl, rfl, rfl⟩ : u = t ∧ g = f ∧ after' = after := by simpa using same
          exact guards
        · exact plain u g after' behind
  · rw [closed guards]
    refine ⟨trivial, List.forall_mem_cons.2 ⟨settled, all⟩, ?_, ?_⟩
    · intro u g after' behind line _
      obtain ⟨⟨rfl, rfl, rfl⟩, rfl⟩ : (t = u ∧ f = g ∧ after = after') ∧ stack = behind := by
        simpa using line
      exact ⟨_, rfl, awaits⟩
    · intro x behind u g after' line inside
      obtain ⟨rfl, rfl⟩ : _ = x ∧ stack = behind := by simpa using line
      exact plain u g after' inside

theorem trampoline [Inhabited V] (sound : c.Sound) {t : TaskId} {after : Focus V C}
    {stack : List (Activation V C)} (member : ⟨.trampoline t after, stack⟩ ∈ c.agents)
    (permitted : c.Guarded ⟨.trampoline t after, stack⟩)
    (step : (⟨c.state, .trampoline t after, stack⟩ : Config V C).step = .ok config) :
    Agent.Goes c ⟨.trampoline t after, stack⟩ config := by
  have steady := sound.steady _ member
  have stage : c.stage t = some .next := sound.stage_of_run member (by simp [Agent.runs, Focus.run?])
  simp only [Config.step, Config.resumeTop, bind_ok, State.task_ok] at step
  obtain ⟨task, found, step⟩ := step
  have top := State.top_of_get? found
  cases first : task.top with
  | none => simp [first] at step
  | some f =>
    rw [first] at top
    simp only [first] at step
    obtain ⟨resumption, st', resumed, rfl⟩ := resumeFrame_ok step
    have quiet := State.Quiet.modifyTask c.state t
      (f := fun task => { task with value := default, error := none }) (fun _ => rfl) (fun _ => rfl)
      fun _ _ => .inl rfl
    have picture : (c.state.modifyTask t fun task =>
        { task with value := default, error := none }).picture
        (Function.update c.stage t (some (.inside f))) =
        c.picture.move t (c.state.top t) (some (.inside f)) :=
      (quiet.picture _).trans (State.picture_stage c.state c.stage t (some (.inside f)))
    have run := sound.life_of_stage stage
    have inside : ∀ g, some (Stage.inside f) = some (.inside g) → c.state.top t = some g := by
      rintro g ⟨⟩
      exact top
    have moved : (c.picture.move t (c.state.top t) (some (.inside f))).Warded :=
      sound.warded.resume stage top
    have front : (c.picture.move t (c.state.top t) (some (.inside f))).Front t f := by
      refine ⟨(base_inside stage_move_self).trans ?_, fun g same => ?_⟩
      · simp [Picture.move, top]
      · simpa [Picture.move] using same.symm
    have absent : ∀ r, c.picture.owner r = some t → t ∉ c.picture.waiters r := fun r owns =>
      sound.warded.not_queued_of_next stage owns
    have free : ∀ {r body}, task.error = none →
        (c.state.guard? f = some (r, .start body) ∧ c.state.owner r = none ∨
          ∃ value, c.state.guard? f = some (r, .waiting body value)) →
        (c.picture.move t (c.state.top t) (some (.inside f))).Idle body := fun {r body} none' asks => by
      have idle := permitted task f r body found first none' asks
      refine ⟨idle.known, fun u uses => idle.unused u ?_, idle.unresumed⟩
      exact uses_turn (by simp [Plain, Crew.picture, State.picture, stage]) (by simp [Plain]) inside uses
    rw [← picture] at moved front free
    obtain ⟨q, guarding, neutral, within, awaits, closed, _⟩ := State.resume_effect moved front
      (fun _ => ⟨by simp, (quiet.top t).trans top⟩) free resumed
    rw [picture] at moved front guarding
    have label : Agent.resumed? ⟨.trampoline t after, stack⟩ c.state = some (t, f) := by
      simp [Agent.resumed?, top]
    have effect : Effect c.picture (some t) (some (t, f)) _ :=
      .resumed rfl (.of_base ((base_next stage).trans top)) moved front absent guarding neutral
    refine .turn t (some .next) (some (.inside f)) (stack.filterMap Activation.run?) rfl ?_ (by simp) (label ▸ effect)
      (within.lined (quiet.lined sound.lined)) ?_ (fun _ => within.running (quiet.running run))
      (fun _ live => within.running (quiet.running live)) ?_
    · cases resumption.opened <;> rfl
    · exact within.ended_of_running (quiet.running run) (quiet.keepsEnded sound.ended)
    · refine steady_resumed steady.focus steady.stack (fun u g after' inside' => ?_) awaits closed
      have other : some u ≠ some t := fun same =>
        sound.ne_of_behind member (s := .next) rfl
          (List.mem_filterMap.2 ⟨_, inside', rfl⟩) (Option.some.inj same)
      rw [effect.guard_inside sound.warded (sound.stage_of_run member (Agent.mem_runs inside')) other]
      exact steady.plain (by simp) inside'

/-! ## Beginning a run -/

/-- The run of a ready task begins. -/
theorem begin (sound : c.Sound) {focus after : Focus V C} {stack : List (Activation V C)}
    {t : TaskId} {w : Worker} {st₁ st₂ : State V C} (member : ⟨focus, stack⟩ ∈ c.agents)
    (idle : focus.run? = none) (busy : ∀ program, focus ≠ .code program) (settled : after.run? = none)
    (quiet : State.Quiet c.state st₁) (absent : ∀ r, c.state.owner r = some t → t ∉ c.state.waiters r)
    (begun : st₁.beginRun t w = .ok st₂) :
    Agent.Goes c ⟨focus, stack⟩ ⟨st₂, .trampoline t after, stack⟩ := by
  have steady := sound.steady _ member
  obtain ⟨quiet₂, ready, run⟩ := State.Quiet.beginRun begun
  have both := quiet.trans quiet₂
  have stage : c.stage t = none := sound.stage_of_life fun live => by
    simp [quiet.running live] at ready
  have picture : st₂.picture (Function.update c.stage t (some .next)) =
      c.picture.move t (c.state.top t) (some .next) :=
    (both.picture _).trans (State.picture_stage ..)
  have neutral : Neutral (some t) c.picture (st₂.picture (Function.update c.stage t (some .next))) :=
    picture ▸ .move fun warded => warded.begin stage absent
  have label : Agent.resumed? ⟨focus, stack⟩ c.state = none := by
    cases focus with
    | trampoline => simp [Focus.run?] at idle
    | code program => exact absurd rfl (busy program)
    | _ => rfl
  refine .turn t none (some .next) (stack.filterMap Activation.run?)
    ?_ rfl (fun _ => stage) (label ▸ .neutral neutral) (both.lined sound.lined)
    (both.keepsEnded sound.ended) (fun _ => run) (fun _ live => both.running live) ?_
  · simp only [Agent.runs, idle]
    rfl
  · refine .of_plain settled steady.stack fun u g after' inside => ?_
    rw [neutral.guard (sound.warded.inside (sound.stage_of_run member (Agent.mem_runs inside))).1]
    exact steady.plain (fun answer same => busy _ same) inside

theorem runReady (sound : c.Sound) {focus after otherwise : Focus V C}
    {stack : List (Activation V C)} {s : SchedulerId} {w : Worker}
    (member : ⟨focus, stack⟩ ∈ c.agents) (idle : focus.run? = none)
    (busy : ∀ program, focus ≠ .code program) (settled : after.run? = none)
    (otherwise' : otherwise.run? = none)
    (step : (⟨c.state, focus, stack⟩ : Config V C).runReady s w after otherwise = .ok config) :
    Agent.Goes c ⟨focus, stack⟩ config := by
  have steady := sound.steady _ member
  simp only [Config.runReady, bind_ok] at step
  obtain ⟨⟨next, st₁⟩, taken, step⟩ := step
  have quiet := State.Quiet.takeReady taken
  rcases State.takeReady_ok taken with ⟨rfl, _⟩ | ⟨t, rest', rfl, _, line, _⟩
  · obtain rfl := pure_ok.1 step
    have label : Agent.resumed? ⟨focus, stack⟩ c.state = none := by
      cases focus with
      | trampoline => simp [Focus.run?] at idle
      | code program => exact absurd rfl (busy program)
      | _ => rfl
    refine sound.still member label quiet.serves ?_ ?_ steady.stack fun u g after' inside =>
      ⟨inside, steady.plain (fun answer same => busy _ same) inside⟩
    · simp only [Config.agent, Config.goTo, Agent.runs, idle, otherwise']
    · cases otherwise with
      | trampoline => simp [Focus.run?] at otherwise'
      | _ => trivial
  · simp only [Config.beginRun, Config.tryState, bind_ok, pure_ok] at step
    obtain ⟨_, ⟨st₂, begun, rfl⟩, rfl⟩ := step
    refine sound.begin member idle busy settled quiet (fun r _ waits => ?_) begun
    exact sound.lined.ready_not_waiting (s := s) (by simp [line]) waits

/-- Threads that look for something to run, or wait. -/
theorem look [Inhabited V] (sound : c.Sound) {focus : Focus V C} {stack : List (Activation V C)}
    (member : ⟨focus, stack⟩ ∈ c.agents) (idle : focus.run? = none)
    (busy : ∀ program, focus ≠ .code program) (permitted : c.Guarded ⟨focus, stack⟩)
    (step : (⟨c.state, focus, stack⟩ : Config V C).step = .ok config) :
    Agent.Goes c ⟨focus, stack⟩ config := by
  have steady := sound.steady _ member
  have stay : ∀ {next : Focus V C}, next.run? = none →
      Agent.Goes c ⟨focus, stack⟩ ⟨c.state, next, stack⟩ := fun {next} next' => by
    refine sound.still member ?_ (.refl _) ?_ ?_ steady.stack fun u g after' inside =>
      ⟨inside, steady.plain (fun answer same => busy _ same) inside⟩
    · cases focus with
      | trampoline => simp [Focus.run?] at idle
      | code program => exact absurd rfl (busy program)
      | _ => rfl
    · simp only [Config.agent, Agent.runs, idle, next']
    · cases next with
      | trampoline => simp [Focus.run?] at next'
      | _ => trivial
  cases focus with
  | code program => exact absurd rfl (busy program)
  | trampoline => simp [Focus.run?] at idle
  | drain s runs next => exact sound.runReady member rfl busy rfl rfl step
  | work s index => exact sound.runReady member rfl busy rfl rfl step
  | rest =>
    obtain rfl := pure_ok.1 step
    exact stay rfl
  | own t index =>
    simp only [Config.step, Config.beginRun, Config.tryState, bind_ok, pure_ok] at step
    obtain ⟨_, ⟨st₂, begun, rfl⟩, rfl⟩ := step
    exact sound.begin member rfl busy rfl (.refl _) permitted.2 begun
  | waiting condition limit next =>
    simp only [Config.step, Config.keepWaiting] at step
    split at step
    · obtain rfl := pure_ok.1 step
      exact stay rfl
    · split at step
      · exact sound.runReady member rfl busy rfl rfl step
      · obtain rfl := pure_ok.1 step
        exact stay rfl

/-! ## Answers -/

/-- A guard whose answer is delivered has answered as its phase demands. -/
theorem answers (sound : c.Sound) {answer : Answer V} {t : TaskId} {f : FrameId} {after : Focus V C}
    {stack : List (Activation V C)}
    (member : ⟨.code (.answer answer), .frame t f after :: stack⟩ ∈ c.agents) {r : ResourceId}
    {phase : Phase V} (guard : c.picture.guard f = some (r, phase)) :
    c.picture.Answers t f (.answer answer : Program V C) phase := by
  obtain ⟨program, same, awaits⟩ := (sound.steady _ member).first rfl (by simp [guard])
  obtain rfl : Program.answer answer = program := by simpa using same
  exact awaits guard

theorem inside (sound : c.Sound) {focus : Focus V C} {t : TaskId} {f : FrameId} {after : Focus V C}
    {stack : List (Activation V C)} (member : ⟨focus, .frame t f after :: stack⟩ ∈ c.agents) :
    c.stage t = some (.inside f) :=
  sound.stage_of_run member (Agent.mem_runs (show Activation.frame t f after ∈ _ from List.mem_cons_self))

/-- The end of an activation leaves the thread steady. -/
theorem steady_behind (sound : c.Sound) {answer : Answer V} {x : Activation V C}
    {stack : List (Activation V C)} {next : Focus V C} {t : TaskId} {p' : Picture V}
    (member : ⟨.code (.answer answer), x :: stack⟩ ∈ c.agents) (settled : next.Settled)
    (neutral : Neutral (some t) c.picture p') : Agent.Steady p' ⟨next, stack⟩ := by
  have steady := sound.steady _ member
  refine .of_plain settled (fun y behind => steady.stack y (List.mem_cons_of_mem x behind))
    fun u g after behind => ?_
  have stage := sound.stage_of_run member (Agent.mem_runs (List.mem_cons_of_mem x behind))
  rw [neutral.guard (sound.warded.inside stage).1]
  exact steady.later rfl behind

/-- A frame suspended. -/
theorem suspendRun (sound : c.Sound) {t : TaskId} {f : FrameId} {after : Focus V C}
    {stack : List (Activation V C)}
    (member : ⟨.code (.answer .suspended), .frame t f after :: stack⟩ ∈ c.agents)
    (step : (⟨c.state, .code (.answer .suspended), stack⟩ : Config V C).suspendRun t after =
      .ok config) :
    Agent.Goes c ⟨.code (.answer .suspended), .frame t f after :: stack⟩ config := by
  have stage := sound.inside member
  have settled : after.run? = none := (sound.steady _ member).stack (.frame t f after) (by simp)
  simp only [Config.suspendRun, Config.tryState, bind_ok, pure_ok] at step
  obtain ⟨_, ⟨st', parked, rfl⟩, rfl⟩ := step
  have quiet := State.Quiet.endRun c.state t
  obtain ⟨stops, open'⟩ := State.Stops.park parked
  have picture : st'.picture (Function.update c.stage t none) =
      c.picture.move t (c.state.top t) none :=
    (stops.picture _).trans ((quiet.picture _).trans (State.picture_stage ..))
  have neutral : Neutral (some t) c.picture (st'.picture (Function.update c.stage t none)) :=
    picture ▸ .move fun warded => warded.park stage
  refine .turn t (some (.inside f)) none (stack.filterMap Activation.run?) rfl ?_ (by simp) (.neutral neutral)
    (stops.lined (quiet.lined sound.lined)) ?_ (by simp)
    (fun other live => stops.live other (quiet.running live)) ?_
  · simp only [Config.agent, Config.goTo, Agent.runs, settled]
    rfl
  · exact stops.keepsEnded (fun terminal same => absurd same (open' terminal))
      (quiet.keepsEnded sound.ended)
  · refine sound.steady_behind member ?_ neutral
    cases after with
    | trampoline => simp [Focus.run?] at settled
    | _ => trivial

/-- A frame that is at its end, and is no guard that waits or holds, leaves the chain. -/
theorem slack_of_end (sound : c.Sound) {answer : Answer V} {t : TaskId} {f : FrameId}
    {after : Focus V C} {stack : List (Activation V C)}
    (member : ⟨.code (.answer answer), .frame t f after :: stack⟩ ∈ c.agents)
    (ends : (∃ value, answer = .done value) ∨ ∃ error, answer = .throw error) :
    c.picture.Slack f := by
  intro r phase guard
  have answers := sound.answers member guard
  cases phase with
  | start | released => rfl
  | waiting => rcases ends with ⟨_, rfl⟩ | ⟨_, rfl⟩ <;> simp [Answers] at answers
  | held => rcases ends with ⟨_, rfl⟩ | ⟨_, rfl⟩ <;> simp [Answers] at answers

/-- A frame finished. -/
theorem finishFrame [Inhabited V] (sound : c.Sound) {answer : Answer V} {t : TaskId} {f : FrameId}
    {after : Focus V C} {stack : List (Activation V C)} {result : Except (Error V) V}
    (member : ⟨.code (.answer answer), .frame t f after :: stack⟩ ∈ c.agents)
    (ends : (∃ value, answer = .done value) ∨ ∃ error, answer = .throw error)
    (step : (⟨c.state, .code (.answer answer), stack⟩ : Config V C).finishFrame t f result after =
      .ok config) :
    Agent.Goes c ⟨.code (.answer answer), .frame t f after :: stack⟩ config := by
  have stage := sound.inside member
  have slack := sound.slack_of_end member ends
  have settled : after.run? = none := (sound.steady _ member).stack (.frame t f after) (by simp)
  have label : Agent.resumed? ⟨.code (.answer answer), .frame t f after :: stack⟩ c.state = none := by
    rcases ends with ⟨_, rfl⟩ | ⟨_, rfl⟩ <;> rfl
  simp only [Config.finishFrame, bind_ok, State.task_ok, State.check_ok, State.frame_ok] at step
  obtain ⟨task, found, first, frame, code, step⟩ := step
  have top : c.state.top t = some f := (State.top_of_get? found).trans (by simpa using first)
  have caller : c.state.caller f = frame.caller := by simp [State.caller, code]
  have known := State.isSome_of_top top
  have run := sound.life_of_stage stage
  rw [show c.state.caller f = c.picture.caller f from rfl] at caller
  cases above : frame.caller with
  | none =>
    simp only [above, Config.finishRun, Config.tryState, Config.mapState, bind_ok, pure_ok] at step
    obtain ⟨_, ⟨st', finished, rfl⟩, rfl⟩ := step
    have within := State.Within.modifyTask c.state t (f := fun task => { task with top := none })
      (fun _ => rfl) fun _ => rfl
    have quiet := State.Quiet.endRun (c.state.modifyTask t fun task => { task with top := none }) t
    have empty : ((c.state.modifyTask t fun task => { task with top := none }).endRun t).top t =
        none := by
      rw [quiet.top, State.top_modifyTask_eq (f := fun task => { task with top := none }) known
        fun _ => rfl]
      simp
    have stops := State.Stops.finish empty finished
    have picture : st'.picture (Function.update c.stage t none) =
        c.picture.move t (c.picture.caller f) none := by
      rw [stops.picture, quiet.picture, caller, above]
      exact State.picture_modifyTask (f := fun task => { task with top := none }) known (fun _ => rfl) none
    have neutral : Neutral (some t) c.picture (st'.picture (Function.update c.stage t none)) :=
      picture ▸ .move fun warded => warded.pop stage top slack (.inl rfl)
    refine .turn t (some (.inside f)) none (stack.filterMap Activation.run?) rfl ?_ (by simp) (label ▸ .neutral neutral)
      (stops.lined (quiet.lined (within.lined sound.lined))) ?_ (by simp)
      (fun other live => stops.live other (quiet.running (within.running live))) ?_
    · simp only [Config.agent, Config.goTo, Agent.runs, settled]
      rfl
    · exact stops.keepsEnded (fun _ _ => (stops.top t).trans empty)
        (quiet.keepsEnded (within.ended_of_running run sound.ended))
    · refine sound.steady_behind member ?_ neutral
      cases after with
      | trampoline => simp [Focus.run?] at settled
      | _ => trivial
  | some k =>
    simp only [above, pure_ok] at step
    subst step
    have sets : ∀ task : Task V, (Config.returnTo task k result).top = some k := by
      cases result <;> intro task <;> rfl
    have within := State.Within.modifyTask c.state t
      (f := fun task => Config.returnTo task k result)
      (by cases result <;> intro task <;> rfl) (by cases result <;> intro task <;> rfl)
    have picture : (c.state.modifyTask t fun task => Config.returnTo task k result).picture
        (Function.update c.stage t (some .next)) =
        c.picture.move t (c.picture.caller f) (some .next) := by
      rw [caller, above]
      exact State.picture_modifyTask known sets (some .next)
    have neutral : Neutral (some t) c.picture
        ((c.state.modifyTask t fun task => Config.returnTo task k result).picture
          (Function.update c.stage t (some .next))) :=
      picture ▸ .move fun warded => warded.pop stage top slack (.inr rfl)
    refine .turn t (some (.inside f)) (some .next) (stack.filterMap Activation.run?) rfl rfl (by simp) (label ▸ .neutral neutral)
      (within.lined sound.lined) (within.ended_of_running run sound.ended)
      (fun _ => within.running run) (fun _ live => within.running live) ?_
    exact sound.steady_behind member settled neutral

/-! ## Unwinding -/

/-- An unwind cancels the next frame, or goes on at its target. -/
theorem cancelNext [Inhabited V] (sound : c.Sound) {focus focus' : Focus V C} {x : Activation V C}
    {stack : List (Activation V C)} {st₁ : State V C} {t : TaskId} {old : Stage}
    {doomed : List FrameId} {target : FrameId} {value : V} {after next : Focus V C}
    (member : ⟨focus, x :: stack⟩ ∈ c.agents) (idle : focus.run? = none)
    (mine : x.run? = some (t, old)) (within : State.Within t c.state st₁)
    {top : Option FrameId} (picture₁ : st₁.picture
      (Function.update c.stage t (some (.unwinding doomed target))) =
        c.picture.move t top (some (.unwinding doomed target)))
    (warded₁ : (c.picture.move t top (some (.unwinding doomed target))).Warded)
    (on : ∀ f, doomed.head? = some f → c.picture.OnChain t f)
    (label : Agent.resumed? ⟨focus, x :: stack⟩ c.state = doomed.head?.map fun f => (t, f))
    (again : after = .trampoline t next) (settled : next.run? = none)
    (step : (⟨st₁, focus', stack⟩ : Config V C).cancelNext t doomed target value after =
      .ok config) :
    Agent.Goes c ⟨focus, x :: stack⟩ config := by
  have steady := sound.steady _ member
  have runs : Agent.runs ⟨focus, x :: stack⟩ =
      entry t (some old) ++ stack.filterMap Activation.run? := by
    simp only [Agent.runs, idle, List.filterMap_cons, mine]
    rfl
  have stage : c.stage t = some old := sound.stage_of_run member (by simp [runs, entry])
  have run := sound.life_of_stage stage
  have run₁ := within.running run
  have others : ∀ {u g after'}, .frame u g after' ∈ stack → some u ≠ some t :=
    fun behind same => sound.ne_of_behind member runs
      (List.mem_filterMap.2 ⟨_, behind, rfl⟩) (Option.some.inj same)
  have plain : ∀ {u g after'} {label' : Option (TaskId × FrameId)} {p' : Picture V},
      Effect c.picture (some t) label' p' → .frame u g after' ∈ stack → p'.guard g = none :=
    fun effect behind => by
      have at' := sound.stage_of_run member (Agent.mem_runs (List.mem_cons_of_mem x behind))
      rw [effect.guard_inside sound.warded at' (others behind)]
      exact steady.later rfl behind
  have at₁ : (c.picture.move t top (some (.unwinding doomed target))).stage t =
      some (.unwinding doomed target) := stage_move_self
  cases doomed with
  | nil =>
    obtain rfl := pure_ok.1 step
    have landed := State.Within.modifyTask st₁ t
      (f := fun task => { task with top := some target, value := value, error := none })
      (fun _ => rfl) fun _ => rfl
    have known : (st₁.tasks.get? t).isSome = true := by
      obtain ⟨task, found, _⟩ := Option.map_eq_some_iff.1 run₁
      simp [found]
    have picture : (Config.landAt st₁ t target value).picture
        (Function.update c.stage t (some .next)) =
        c.picture.move t (some target) (some .next) := by
      have moved : _ = (st₁.picture (Function.update c.stage t (some (.unwinding [] target)))).move t
        (some target) (some .next) := State.picture_modifyTask
        (f := fun task => { task with top := some target, value := value, error := none })
        known (fun _ => rfl) (some .next)
      rwa [Function.update_idem, picture₁, Picture.move_move] at moved
    have neutral : Neutral (some t) c.picture ((Config.landAt st₁ t target value).picture
        (Function.update c.stage t (some .next))) :=
      picture ▸ .move fun _ => Picture.move_move c.picture t .. ▸ warded₁.land at₁
    have both := within.trans landed
    subst again
    refine .turn t (some old) (some .next) (stack.filterMap Activation.run?) runs rfl (by simp)
      (label ▸ .neutral neutral) (both.lined sound.lined) (both.ended_of_running run sound.ended)
      (fun _ => both.running run) (fun _ live => both.running live) ?_
    refine .of_plain settled (fun y behind => steady.stack y (List.mem_cons_of_mem x behind))
      fun u g after' behind => plain (.neutral neutral) behind
  | cons f rest' =>
    obtain ⟨resumption, st', resumed, rfl⟩ := resumeFrame_ok
      (show (⟨st₁, focus', stack⟩ : Config V C).resumeFrame t f default (some .cancelled)
        (.cancel t rest' target value after) = .ok config from step)
    have front : (c.picture.move t top (some (.unwinding (f :: rest') target))).Front t f := by
      refine ⟨?_, fun g inside => ?_⟩
      · simp only [base, at₁]
        rfl
      · simp [at₁] at inside
    have absent : ∀ r, t ∉ c.picture.waiters r := warded₁.not_queued_of_unwinding at₁
    obtain ⟨q, guarding, neutral, within', _, _, slack⟩ := State.resume_effect (picture₁ ▸ warded₁)
      (picture₁ ▸ front) (by simp) (by simp) resumed
    rw [picture₁] at guarding
    have picture : st'.picture (Function.update c.stage t (some (.unwinding rest' target))) =
        (st'.picture (Function.update c.stage t (some (.unwinding (f :: rest') target)))).move t
          (st'.top t) (some (.unwinding rest' target)) := by
      have moved := State.picture_stage st'
        (Function.update c.stage t (some (.unwinding (f :: rest') target))) t
        (some (.unwinding rest' target))
      rwa [Function.update_idem] at moved
    have dropped : Neutral (some t)
        (st'.picture (Function.update c.stage t (some (.unwinding (f :: rest') target))))
        (st'.picture (Function.update c.stage t (some (.unwinding rest' target)))) :=
      picture ▸ .move fun warded => warded.drop (Function.update_self ..) (slack (by simp))
    have effect : Effect c.picture (some t) (some (t, f))
        (st'.picture (Function.update c.stage t (some (.unwinding rest' target)))) :=
      .resumed rfl (on f rfl) warded₁ front (fun r _ => absent r) guarding (neutral.trans dropped)
    have both := within.trans within'
    refine .turn t (some old) (some (.unwinding rest' target)) (stack.filterMap Activation.run?) runs ?_ (by simp) (label ▸ effect)
      (both.lined sound.lined) (both.ended_of_running run sound.ended)
      (fun _ => both.running run) (fun _ live => both.running live) ?_
    · cases resumption.opened <;> rfl
    · refine .of_plain trivial (fun y inside => ?_) fun u g after' inside => ?_
      · rcases List.mem_append.1 inside with new | old'
        · obtain ⟨z, _, rfl⟩ : ∃ z, resumption.opened = some z ∧ .opened z = y := by simpa using new
          trivial
        · rcases List.mem_cons.1 old' with rfl | behind
          · exact ⟨next, again, settled⟩
          · exact steady.stack y (List.mem_cons_of_mem x behind)
      · rcases List.mem_append.1 inside with new | old'
        · simp at new
        · exact plain effect ((List.mem_cons.1 old').resolve_left (by simp))

/-- A cancelled frame answered, whatever that is. -/
theorem cancelled [Inhabited V] (sound : c.Sound) {answer : Answer V} {t : TaskId}
    {doomed : List FrameId} {target : FrameId} {value : V} {after : Focus V C}
    {stack : List (Activation V C)}
    (member : ⟨.code (.answer answer), .cancel t doomed target value after :: stack⟩ ∈ c.agents)
    (step : (⟨c.state, .code (.answer answer), stack⟩ : Config V C).cancelNext t doomed target value
      after = .ok config) :
    Agent.Goes c ⟨.code (.answer answer), .cancel t doomed target value after :: stack⟩ config := by
  have stage : c.stage t = some (.unwinding doomed target) :=
    sound.stage_of_run member (by simp [Activation.run?])
  have same : Function.update c.stage t (some (.unwinding doomed target)) = c.stage := by
    rw [← stage, Function.update_eq_self]
  obtain ⟨next, again, settled⟩ : ∃ next, after = .trampoline t next ∧ next.run? = none :=
    (sound.steady _ member).stack (.cancel t doomed target value after) (by simp)
  have stays : c.picture.move t (c.picture.top t) (some (.unwinding doomed target)) = c.picture := by
    simp [Picture.move, Crew.picture, State.picture, same]
  refine sound.cancelNext member rfl rfl (.refl c.state) ?_ (stays ▸ sound.warded)
    (fun f first => ?_) ?_ again settled step
  · rw [same, stays]
    rfl
  · have at' : c.picture.stage t = some (.unwinding doomed target) := stage
    refine .of_base ?_
    simp [base, at', first]
  · cases doomed <;> rfl

/-- A frame that jumps is no guard that waits, and nothing is engaged at the top of its chain, unless
    the frame is a guard that calls its body. -/
theorem slack_of_jump (sound : c.Sound) {t : TaskId} {f target : FrameId} {value : V}
    {after : Focus V C} {stack : List (Activation V C)}
    (member : ⟨.code (.answer (.jump target value)), .frame t f after :: stack⟩ ∈ c.agents)
    {g : FrameId} (top : c.state.top t = some g) : c.picture.Slack g := by
  have stage := sound.inside member
  intro r phase guard
  by_cases same : g = f
  · subst same
    have answers := sound.answers member guard
    cases phase with
    | start | released => rfl
    | waiting => simp [Answers] at answers
    | held =>
      obtain ⟨body, _, _, found, different⟩ := answers
      exact absurd (Option.some.inj (found.symm.trans top)) different
  · obtain ⟨body, rfl⟩ := sound.warded.pushed stage top same guard
    rfl

/-- Where a frame that jumped leaves its chain. -/
theorem jumped (sound : c.Sound) {t : TaskId} {f target : FrameId} {value : V} {after : Focus V C}
    {stack : List (Activation V C)}
    (member : ⟨.code (.answer (.jump target value)), .frame t f after :: stack⟩ ∈ c.agents) :
    (c.picture.move t (Agent.topAfterJump c.state t f target) (some .next)).Warded ∧
      ∀ g, Agent.topAfterJump c.state t f target = some g → c.picture.OnChain t g ∧
        ∀ r body kept, c.picture.guard g ≠ some (r, .waiting body kept) := by
  have stage : c.picture.stage t = some (.inside f) := sound.inside member
  unfold Agent.topAfterJump
  split
  · next leaves =>
    refine ⟨sound.warded.pop stage leaves.1 (sound.slack_of_jump member leaves.1) (.inr rfl), ?_⟩
    intro g link
    refine ⟨sound.warded.onChain_caller stage link, fun r body kept waiting => ?_⟩
    have held := sound.warded.beneath (.inr stage) link waiting
    simp at held
  · refine ⟨sound.warded.next stage fun g top => sound.slack_of_jump member top, ?_⟩
    intro g top
    exact ⟨.of_base ((base_inside stage).trans top), fun _ _ _ =>
      (sound.slack_of_jump member top).not_waiting⟩

/-- A frame jumped. -/
theorem jump [Inhabited V] (sound : c.Sound) {t : TaskId} {f target : FrameId} {value : V}
    {after : Focus V C} {stack : List (Activation V C)}
    (member : ⟨.code (.answer (.jump target value)), .frame t f after :: stack⟩ ∈ c.agents)
    (step : (⟨c.state, .code (.answer (.jump target value)), stack⟩ : Config V C).jump t f target value
      after = .ok config) :
    Agent.Goes c ⟨.code (.answer (.jump target value)), .frame t f after :: stack⟩ config := by
  have stage := sound.inside member
  have run := sound.life_of_stage stage
  have settled : after.run? = none := (sound.steady _ member).stack (.frame t f after) (by simp)
  obtain ⟨left, place⟩ := sound.jumped member
  simp only [Config.jump, bind_ok, State.task_ok, State.frame_ok] at step
  obtain ⟨task, found, frame, code, step⟩ := step
  have same : (if task.top = some f ∧ f ≠ target then frame.caller else task.top) =
      Agent.topAfterJump c.state t f target := by
    simp [Agent.topAfterJump, State.top_of_get? found, State.caller, code]
  have known : (c.state.tasks.get? t).isSome = true := by simp [found]
  rw [same] at step
  generalize top' : Agent.topAfterJump c.state t f target = top at *
  have label : Agent.resumed? ⟨.code (.answer (.jump target value)), .frame t f after :: stack⟩
      c.state = if top = some target then none else top.map fun g => (t, g) := by
    simp [Agent.resumed?, top']
  have within := State.Within.modifyTask c.state t (f := fun task => { task with top := top })
    (fun _ => rfl) fun _ => rfl
  have picture : (c.state.modifyTask t fun task => { task with top := top }).picture
      (Function.update c.stage t (some .next)) = c.picture.move t top (some .next) :=
    State.picture_modifyTask (f := fun task => { task with top := top }) known (fun _ => rfl) _
  split at step
  · next lands =>
    subst lands
    obtain rfl := pure_ok.1 step
    have landed := State.Within.modifyTask
      (c.state.modifyTask t fun task => { task with top := some target }) t
      (f := fun task => { task with top := some target, value := value, error := none })
      (fun _ => rfl) fun _ => rfl
    have both := within.trans landed
    have picture' : (Config.landAt (c.state.modifyTask t fun task => { task with top := some target })
        t target value).picture (Function.update c.stage t (some .next)) =
        c.picture.move t (some target) (some .next) := by
      have known' : ((c.state.modifyTask t fun task => { task with top := some target }).tasks.get?
          t).isSome = true := by simp [State.get?_modifyTask, found]
      rw [← Function.update_idem (f := c.stage)]
      refine (State.picture_modifyTask
        (f := fun task => { task with top := some target, value := value, error := none }) known'
        (fun _ => rfl) _).trans ?_
      rw [picture, Picture.move_move]
    have neutral : Neutral (some t) c.picture ((Config.landAt (c.state.modifyTask t fun task =>
        { task with top := some target }) t target value).picture
        (Function.update c.stage t (some .next))) := picture' ▸ .move fun _ => left
    refine .turn t (some (.inside f)) (some .next) (stack.filterMap Activation.run?) rfl rfl (by simp) ?_
      (both.lined sound.lined) (both.ended_of_running run sound.ended)
      (fun _ => both.running run) (fun _ live => both.running live) ?_
    · rw [label, if_pos rfl]
      exact .neutral neutral
    · exact sound.steady_behind member settled neutral
  · next passes =>
    simp only [Config.unwind, Config.mapState, bind_ok, State.task_ok, State.check_ok] at step
    obtain ⟨task', found', _, step⟩ := step
    split at step
    · next doomed walk =>
      obtain ⟨first, path⟩ := State.framesAbove_some walk
      have top₁ : task'.top = top := by
        rw [State.get?_modifyTask, if_pos rfl, found] at found'
        obtain rfl := Option.some.inj found'
        rfl
      rw [top₁] at first
      have head : doomed.head? = top := by
        cases doomed with
        | nil => exact absurd first.symm passes
        | cons => exact first
      have before : (c.picture.move t top (some (.unwinding doomed target))).Warded := by
        have path' : (doomed ++ [target]).IsChain fun f g => c.picture.caller f = some g := path
        have known' : c.picture.known target := by
          obtain ⟨g, topIs⟩ := Option.ne_none_iff_exists'.1
            (show top ≠ none from fun none' => by simp [none'] at first)
          obtain ⟨b, base, way⟩ := (place g topIs).1
          refine sound.warded.known_of_reaches (left.top_known (t := t) ?_)
            (reaches_of_mem_path path' (first.trans topIs) (by simp))
          simp [Picture.move, topIs]
        have leaps : ((c.picture.move t top (some .next)).move t _ (some (.unwinding doomed target))).Warded :=
          left.leap ?_ known' ?_ path' ?_
        · simpa [Picture.move] using leaps
        · simp [Plain, Picture.move]
        · simpa [Picture.move] using first
        · intro g r body kept topIs waiting
          exact (place g (by simpa [Picture.move] using topIs)).2 r body kept waiting
      refine sound.cancelNext member rfl rfl within (State.picture_modifyTask
        (f := fun task => { task with top := top }) known (fun _ => rfl) _) before
        (fun g first' => ?_) ?_ rfl settled step
      · exact (place g (head.symm.trans first')).1
      · rw [label, if_neg passes, head]
    · simp at step

/-! ## All steps -/

/-- An answer is delivered. -/
theorem deliver [Inhabited V] (sound : c.Sound) {answer : Answer V} {stack : List (Activation V C)}
    (member : ⟨.code (.answer answer), stack⟩ ∈ c.agents)
    (step : (⟨c.state, .code (.answer answer), stack⟩ : Config V C).deliver answer = .ok config) :
    Agent.Goes c ⟨.code (.answer answer), stack⟩ config := by
  have steady := sound.steady _ member
  cases stack with
  | nil =>
    obtain rfl := pure_ok.1 step
    exact sound.still member rfl (.refl _) rfl trivial (by simp) (by simp)
  | cons x behind =>
    have later : ∀ t f after, .frame t f after ∈ behind → .frame t f after ∈ x :: behind ∧
        c.picture.guard f = none := fun t f after inside =>
      ⟨List.mem_cons_of_mem x inside, steady.later rfl inside⟩
    have all : ∀ y ∈ behind, y.Settled := fun y inside => steady.stack y (List.mem_cons_of_mem x inside)
    cases x with
    | frame t f after =>
      cases answer with
      | done value => exact sound.finishFrame member (.inl ⟨value, rfl⟩) step
      | throw error => exact sound.finishFrame member (.inr ⟨error, rfl⟩) step
      | suspended => exact sound.suspendRun member step
      | jump target value => exact sound.jump member step
    | cancel t doomed target value after => exact sound.cancelled member step
    | call next =>
      obtain rfl := pure_ok.1 step
      refine sound.still member ?_ (.refl _) rfl trivial all later
      cases answer <;> rfl
    | opened x =>
      obtain rfl := pure_ok.1 step
      refine sound.still member ?_ (State.Quiet.serves (.modifyExclusive ..)) rfl trivial all later
      cases answer <;> rfl

/-- Every step that a guarded program may make. -/
theorem goes_of_step [Inhabited V] (sound : c.Sound) (member : a ∈ c.agents) (permitted : c.Guarded a)
    (step : (a.config c.state).step = .ok config) : a.Goes c config := by
  obtain ⟨focus, stack⟩ := a
  cases focus with
  | code program =>
    cases program with
    | answer answer => exact sound.deliver member step
    | _ => exact sound.code member (by simp) permitted step
  | trampoline t after => exact sound.trampoline member permitted step
  | _ => exact sound.look member rfl (by simp) permitted step

end Crew.Sound

namespace Crew

variable [Inhabited V]

omit [Inhabited V] in
theorem warded_initial (parallelism : Nat) :
    ((State.initial parallelism : State V C).picture fun _ => none).Warded := by
  have caller : ∀ f, (State.initial parallelism : State V C).caller f = none := fun f => by
    simp [State.caller, State.initial]
  have guard : ∀ f, (State.initial parallelism : State V C).guard? f = none := fun f => by
    simp [State.guard?, State.initial]
  have top : ∀ t, (State.initial parallelism : State V C).top t = none := fun t => by
    simp [State.top, State.initial]
  have owner : ∀ r, (State.initial parallelism : State V C).owner r = none := fun r => by
    simp [State.owner, State.initial]
  have waiters : ∀ r, (State.initial parallelism : State V C).waiters r = [] := fun r => by
    simp [State.waiters, State.initial]
  have unused : ∀ t f, ¬ ((State.initial parallelism : State V C).picture fun _ => none).Uses t f := by
    rintro t f (⟨b, base, _⟩ | inside)
    · simp [Picture.base, State.picture, top] at base
    · simp [State.picture] at inside
  have acyclic : Acyclic (State.initial parallelism : State V C).caller := fun f cycle => by
    obtain ⟨g, link, _⟩ := Relation.TransGen.head'_iff.1 cycle
    simp [caller] at link
  refine ⟨⟨acyclic, ?_, ?_, fun uses => absurd uses (unused _ _), ?_, ?_⟩, ?_, ?_, ?_, ?_,
    fun holds => absurd (.inl holds.1) (unused _ _), ?_, ?_, ?_, ?_, ?_⟩ <;>
    simp [State.picture, caller, guard, top, owner, waiters]

omit [Inhabited V] in
theorem sound_initial (parallelism : Nat) : (initial parallelism : Crew V C).Sound where
  warded := warded_initial parallelism
  lined := by
    constructor <;> simp [State.queue, State.link, State.waiters, initial, State.initial]
  distinct := List.nodup_nil
  running member := nomatch member
  ended := by simp [State.Ended, State.life, initial, State.initial]
  steady a member := nomatch member

omit [Inhabited V] in
/-- A step that leaves all runs where they are and does nothing to chains and ownership. -/
theorem Sound.rest {c c' : Crew V C} (sound : c.Sound) (quiet : State.Quiet c.state c'.state)
    (runs : c'.runs = c.runs) (steady : ∀ a ∈ c'.agents, a.Steady c.picture) :
    c'.Sound ∧ ∃ runner, Effect c.picture runner none c'.picture := by
  have picture : c'.picture = c.picture := by
    have stage : c'.stage = c.stage := funext fun t => congrArg (List.lookup t) runs
    exact (quiet.picture c'.stage).trans (congrArg c.state.picture stage)
  refine ⟨⟨picture ▸ sound.warded, quiet.lined sound.lined, runs ▸ sound.distinct,
    fun member => quiet.running (sound.running (runs ▸ member)), quiet.keepsEnded sound.ended,
    picture ▸ steady⟩, none, picture ▸ .neutral (.refl _)⟩

theorem Sound.step {c c' : Crew V C} {label : Option (TaskId × FrameId)} (sound : c.Sound)
    (step : Step Guarded c label c') :
    c'.Sound ∧ ∃ runner, Effect c.picture runner label c'.picture := by
  cases step with
  | @act st before after a config permitted step =>
    obtain ⟨sound', runner, effect, _⟩ := sound.goes (sound.goes_of_step (by simp) permitted step)
    exact ⟨sound', runner, effect⟩
  | @join st agents a new =>
    have idle : a.runs = [] ∧ a.focus.Settled ∧ a.stack = [] := by
      cases new <;> exact ⟨rfl, trivial, rfl⟩
    refine sound.rest (.refl st) ?_ fun b member => ?_
    · simp [runs, idle.1]
    · rcases List.mem_append.1 member with old | isNew
      · exact sound.steady b old
      · obtain rfl := List.mem_singleton.1 isNew
        obtain ⟨focus, stack⟩ := b
        obtain ⟨_, settled, rfl⟩ := idle
        exact .of_plain settled (by simp) (by simp)
  | @lapse st before after condition limit next stack =>
    refine sound.rest (.refl st) ?_ fun b member => ?_
    · simp [runs, Agent.runs, Focus.run?]
    · rcases List.mem_append.1 member with old | later
      · exact sound.steady b (List.mem_append_left _ old)
      · rcases List.mem_cons.1 later with rfl | old
        · have steady := sound.steady ⟨.waiting condition limit next, stack⟩ (by simp)
          exact .of_plain trivial steady.stack fun t f after inside => steady.plain (by simp) inside
        · exact sound.steady b (List.mem_append_right _ (List.mem_cons_of_mem _ old))
  | @switch st agents thread =>
    exact sound.rest (.of_rest rfl rfl rfl rfl) rfl sound.steady

namespace Run

variable (run : Run V C Guarded)

theorem sound : ∀ i ≤ run.length, (run.crew i).Sound := by
  intro i
  induction i with
  | zero =>
    intro _
    obtain ⟨parallelism, starts⟩ := run.starts
    exact starts ▸ sound_initial parallelism
  | succ i inductionHypothesis =>
    intro bound
    exact ((inductionHypothesis (by omega)).step (run.steps i (by omega))).1

theorem effect {i : Nat} (bound : i < run.length) :
    ∃ runner, Effect (run.crew i).picture runner (run.resumed i) (run.crew (i + 1)).picture :=
  ((run.sound i (by omega)).step (run.steps i bound)).2

end Run

end Crew

end Tasking
