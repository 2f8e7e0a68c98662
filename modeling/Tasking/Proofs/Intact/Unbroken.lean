import Tasking.Proofs.Cancelling
import Tasking.Proofs.Intact.Pledges
import Tasking.Proofs.Intact.Resumes

/-! # Disciplined crews break nothing

`Crew.Intact` puts together what holds throughout a run of careful threads.  It follows that every frame that a
step resumes can be resumed, that whatever a frame answers can be dealt with, and so that no step of a careful thread
meets a fault, unless something is named that does not exist.  Disciplined threads are careful
(`Crew.Run.steps_safely`).
-/

namespace Tasking

open Picture

variable {V C : Type}

/-- Whatever is cancelled can be resumed if it holds its resource. -/
theorem State.Admits.of_held {st : State V C} {t : TaskId} {f : FrameId} {error : Error V} (balanced : st.Balanced)
    (acyclic : Acyclic st.caller)
    (task : ∃ task, st.tasks.get? t = some task ∧ task.life = .running ∧ task.arranged = false)
    (held : ∀ {r phase}, st.code? f = some (.guard r phase) → phase = .held ∧ st.owner r = some t) :
    st.Admits t f (some error) where
  balanced := balanced
  acyclic := acyclic
  task := task
  guard code := by
    obtain ⟨rfl, owns⟩ := held code
    exact owns
  join _ given := by cases given
  message _ given := by cases given

namespace Config

open State

variable {st : State V C} {focus after : Focus V C} {stack : List (Activation V C)} {t : TaskId} {f : FrameId}

theorem resumeFrame_safe {error : Option (Error V)} (admits : st.Admits t f error) (value : V)
    (activation : Activation V C) :
    Safe ((⟨st, focus, stack⟩ : Config V C).resumeFrame t f value error activation) := by
  refine .bind (admits.resume_safe value) fun ⟨resumption, st'⟩ _ => ?_
  dsimp only
  split
  · exact .pure _
  · exact .pure _

theorem beginRun_safe {task : Task V} (found : st.tasks.get? t = some task) (ready : task.life = .ready) (w : Worker) :
    Safe ((⟨st, focus, stack⟩ : Config V C).beginRun t w after) :=
  .bind (.bind (State.beginRun_safe found ready) fun _ _ => .pure _) fun _ _ => .pure _

/-- A ready task is taken up. -/
theorem runReady_safe (balanced : st.Balanced) (s : SchedulerId) (w : Worker) (otherwise : Focus V C) :
    Safe ((⟨st, focus, stack⟩ : Config V C).runReady s w after otherwise) := by
  refine .bind (takeReady_safe s) fun ⟨next, st₁⟩ taken => ?_
  cases next with
  | none => exact .pure _
  | some t =>
    obtain ⟨_, task, _, ready, becomes⟩ := balanced.takeReady taken
    exact beginRun_safe becomes.self ready w

theorem keepWaiting_safe (balanced : st.Balanced) (condition : Until) (next : Program V C) :
    Safe ((⟨st, focus, stack⟩ : Config V C).keepWaiting condition next) := by
  unfold keepWaiting
  split
  · exact .pure _
  · split
    · exact runReady_safe balanced _ _ _
    · exact .pure _

/-- The next frame of an unwind is cancelled if it can be resumed. -/
theorem cancelNext_safe [Inhabited V] {doomed : List FrameId}
    (admits : ∀ f ∈ doomed.head?, st.Admits t f (some .cancelled)) (target : FrameId) (value : V) :
    Safe ((⟨st, focus, stack⟩ : Config V C).cancelNext t doomed target value after) := by
  cases doomed with
  | nil => exact .pure _
  | cons f rest => exact @resumeFrame_safe _ _ _ focus _ _ _ _ (admits f rfl) default _

end Config

namespace Crew

open State

/-- What holds throughout a run of careful threads. -/
structure Intact (c : Crew V C) : Prop where
  sound : c.Sound
  orderly : c.Orderly
  upright : c.Upright
  prompt : c.Prompt
  ripe : c.Ripe
  patient : c.Patient
  safe : c.Sealed
  occupied : c.Occupied

variable {c : Crew V C} {a : Agent V C} {t : TaskId} {f : FrameId} {task : Task V} {after : Focus V C}
  {answer : Answer V} {stack : List (Activation V C)}

/-- A guard on the chain of a task that holds its resource does so for the task. -/
theorem Sound.owner_of_held (sound : c.Sound) (on : c.picture.OnChain t f) {r : ResourceId}
    (code : c.state.code? f = some (.guard r .held)) : c.state.owner r = some t := by
  obtain ⟨u, on', owns⟩ := sound.warded.held (guard?_of_code? code)
  obtain rfl := sound.warded.apart (.inl on) (.inl on')
  exact owns

variable [Inhabited V]

/-- All of that holds throughout. -/
theorem Run.intact (run : Run V C Careful) {k : Nat} (bound : k ≤ run.length) : (run.crew k).Intact := by
  obtain ⟨prompt, ripe, patient⟩ := run.keeps (P := fun c => c.Prompt ∧ c.Ripe ∧ c.Patient)
    (fun parallelism => ⟨prompt_initial parallelism, ripe_initial parallelism, patient_initial parallelism⟩)
    (fun turn ⟨prompt, ripe, patient⟩ => ⟨turn.prompt prompt, turn.ripe prompt ripe, turn.patient prompt patient⟩)
    (fun lulls ⟨prompt, ripe, patient⟩ => ⟨lulls.prompt prompt, lulls.ripe ripe, lulls.patient patient⟩) k bound
  exact {
    sound := (run.mono fun _ _ => Careful.guarded).sound k bound
    orderly := (run.mono fun _ _ => Careful.proper).orderly k bound
    upright := run.keeps upright_initial (fun turn => turn.upright) (fun lulls => lulls.upright) k bound
    prompt := prompt
    ripe := ripe
    patient := patient
    safe := run.keeps sealed_initial (fun turn => turn.sealed) (fun lulls => lulls.sealed) k bound
    occupied := run.keeps occupied_initial (fun turn => turn.occupied) (fun lulls => lulls.occupied) k bound }

namespace Intact

/-! ## Resuming the next frame -/

theorem willing (intact : c.Intact) (member : ⟨.trampoline t after, stack⟩ ∈ c.agents)
    (guarded : c.Guarded ⟨.trampoline t after, stack⟩) (found : c.state.tasks.get? t = some task)
    (first : task.top = some f) {r : ResourceId} {phase : Phase V} (code : c.state.code? f = some (.guard r phase)) :
    (c.state.unloaded t).Willing t f r task.error phase := by
  have sound := intact.sound
  have next : c.stage t = some .next := sound.stage_of_run member (Agent.next_mem_runs t after stack)
  have top : c.state.top t = some f := (top_of_get? found).trans first
  have base : c.picture.base t = some f := (base_next next).trans top
  have unreached {body : FrameId} (idle : c.picture.Idle body) : ¬ Reaches c.state.caller f body := fun way =>
    idle.unused t (.inl ⟨f, base, way⟩)
  cases phase with
  | start body =>
    intro given nobody
    exact unreached (guarded task f r body found first given (.inl ⟨guard?_of_code? code, nobody⟩))
  | waiting body value =>
    have given : task.error = none := by
      by_contra failing
      cases (intact.ripe.failing found failing).2 first code
    refine ⟨given, intact.orderly.owner_of_woken sound member top code, ?_⟩
    exact unreached (guarded task f r body found first given (.inr ⟨value, guard?_of_code? code⟩))
  | held => exact sound.owner_of_held (.of_base base) code
  | released =>
    have inside := intact.ripe.spent top (next ▸ plain_next) code
    cases next.symm.trans inside

/-- The frame at which a run goes on can be resumed. -/
theorem admits_next (intact : c.Intact) (member : ⟨.trampoline t after, stack⟩ ∈ c.agents)
    (guarded : c.Guarded ⟨.trampoline t after, stack⟩) (found : c.state.tasks.get? t = some task)
    (first : task.top = some f) : (c.state.unloaded t).Admits t f task.error := by
  have run := Agent.next_mem_runs t after stack
  have next : c.stage t = some .next := intact.sound.stage_of_run member run
  have top : c.state.top t = some f := (top_of_get? found).trans first
  have unloaded := becomes_modifyTask found fun task => { task with value := default, error := none }
  obtain ⟨_, found', live⟩ := Orderly.get?_of_run intact.sound member run
  obtain rfl := Option.some.inj (found.symm.trans found')
  have calm := intact.orderly.calm_of member run found fun parks => by
    obtain ⟨program, focus, _⟩ := parks.2
    cases focus
  refine ⟨intact.orderly.balanced.modifyTask found fun _ => rfl, intact.sound.warded.acyclic,
    ⟨_, unloaded.self, live, calm⟩, intact.willing member guarded found first, fun code _ => ?_, fun code _ => ?_⟩
  · have follows : State.Follows c.state (c.state.unloaded t) := .of_becomes found unloaded (fun _ => id) rfl (.inr rfl)
    exact follows.settled (Patient.settled intact.patient intact.sound next top code)
  · obtain ⟨actor, exclusive, known, behind, owns⟩ := intact.safe.owner_of_top intact.sound ⟨_, code⟩ next top
    exact ⟨actor, exclusive, known, behind, owns,
      Occupied.closed intact.occupied intact.sound member rfl (.inl ⟨after, rfl⟩) behind owns⟩

/-! ## Dealing with answers -/

omit [Inhabited V] in
/-- The next frame that an unwind cancels can be resumed. -/
theorem admits_cancelled (intact : c.Intact) {doomed : List FrameId} {target : FrameId} {value : V}
    (member : ⟨.code (.answer answer), .cancel t (f :: doomed) target value after :: stack⟩ ∈ c.agents) :
    c.state.Admits t f (some .cancelled) := by
  have sound := intact.sound
  have run : (t, .unwinding (f :: doomed) target) ∈
      Agent.runs (⟨.code (.answer answer), .cancel t (f :: doomed) target value after :: stack⟩ : Agent V C) :=
    List.mem_cons_self
  have stage : c.stage t = some (.unwinding (f :: doomed) target) := sound.stage_of_run member run
  obtain ⟨task, found, live⟩ := Orderly.get?_of_run sound member run
  have calm := intact.orderly.calm_of member run found fun parks => by
    obtain ⟨g, head⟩ := parks.1
    cases head
  refine .of_held intact.orderly.balanced sound.warded.acyclic ⟨task, found, live, calm⟩ fun code => ?_
  obtain rfl := intact.ripe.skipped stage List.mem_cons_self code
  exact ⟨rfl, sound.owner_of_held (.of_base ((base_unwinding stage).trans rfl)) code⟩

omit [Inhabited V] in
/-- A frame that answers is on top, or it suspends or jumps to what is. -/
theorem top_of_answer (intact : c.Intact) (member : ⟨.code (.answer answer), .frame t f after :: stack⟩ ∈ c.agents) :
    c.state.top t = some f ∨
      ∃ h, c.state.top t = some h ∧ (answer = .suspended ∨ ∃ value, answer = .jump h value) := by
  obtain first | ⟨h, first, b, member', leads⟩ := intact.upright (intact.sound.inside member)
  · exact .inl first
  · obtain ⟨g, head⟩ := leads.1
    obtain rfl := intact.sound.sole member member' (s := .inside f) List.mem_cons_self (List.mem_of_mem_head? head)
    exact .inr ⟨h, first, leads.answers⟩

omit [Inhabited V] in
/-- The task of a frame that answers with anything but a suspension has not arranged to wait. -/
theorem calm_of_answer (intact : c.Intact) (member : ⟨.code (.answer answer), .frame t f after :: stack⟩ ∈ c.agents)
    (awake : answer ≠ .suspended) :
    ∃ task, c.state.tasks.get? t = some task ∧ task.life = .running ∧ task.arranged = false := by
  have run : (t, .inside f) ∈ Agent.runs (⟨.code (.answer answer), .frame t f after :: stack⟩ : Agent V C) :=
    List.mem_cons_self
  obtain ⟨task, found, live⟩ := Orderly.get?_of_run intact.sound member run
  refine ⟨task, found, live, intact.orderly.calm_of member run found fun parks => ?_⟩
  have suspends := Agent.heads_frame.1 parks.2
  exact awake suspends

theorem finishFrame_safe (intact : c.Intact)
    (member : ⟨.code (.answer answer), .frame t f after :: stack⟩ ∈ c.agents)
    (ends : (∃ value, answer = .done value) ∨ ∃ error, answer = .throw error) (result : Except (Error V) V)
    (focus : Focus V C) : Safe ((⟨c.state, focus, stack⟩ : Config V C).finishFrame t f result after) := by
  have top : c.state.top t = some f := by
    refine (intact.top_of_answer member).resolve_right ?_
    rintro ⟨_, _, rfl | ⟨_, rfl⟩⟩ <;> obtain ⟨_, same⟩ | ⟨_, same⟩ := ends <;> cases same
  unfold Config.finishFrame
  refine .bind (.task t) fun task found => .check ?_ (.bind (.frame f) fun frame _ => ?_)
  · simp [← top_of_get? (task_ok.1 found), top]
  · split
    · obtain ⟨balanced, found', live, calm, listed⟩ :=
        intact.orderly.emptied intact.sound member ends (task_ok.1 found)
      exact .bind (.bind (balanced.finish_safe found' live calm listed) fun _ _ => .pure _) fun _ _ => .pure _
    · exact .pure _

omit [Inhabited V] in
theorem suspendRun_safe (intact : c.Intact)
    (member : ⟨.code (.answer .suspended), .frame t f after :: stack⟩ ∈ c.agents)
    (careful : c.Careful ⟨.code (.answer .suspended), .frame t f after :: stack⟩) (focus : Focus V C) :
    Safe ((⟨c.state, focus, stack⟩ : Config V C).suspendRun t after) := by
  obtain ⟨task, found, arranged⟩ : ∃ task, c.state.tasks.get? t = some task ∧ task.arranged = true := by
    by_cases made : c.state.ReadyMade f
    · obtain ⟨answer, rest, same, honours⟩ := intact.prompt _ member List.mem_cons_self made
      cases same
      exact honours.suspends rfl
    · exact careful.2 t f after stack rfl made
  obtain ⟨_, found', live⟩ := Orderly.get?_of_run intact.sound member (t := t) (s := .inside f) List.mem_cons_self
  obtain rfl := Option.some.inj (found.symm.trans found')
  have rested := becomes_modifyTask found fun task => { task with worker := none }
  have balanced : (c.state.endRun t).Balanced := intact.orderly.balanced.modifyTask found fun _ => rfl
  exact .bind (.bind (balanced.park_safe rested.self live arranged) fun _ _ => .pure _) fun _ _ => .pure _

omit [Inhabited V] in
/-- A frame that jumps leaves its chain at the target or above it, and if above, at its caller. -/
theorem way_of_jump (intact : c.Intact) {target : FrameId} {value : V}
    (member : ⟨.code (.answer (.jump target value)), .frame t f after :: stack⟩ ∈ c.agents)
    (careful : c.Careful ⟨.code (.answer (.jump target value)), .frame t f after :: stack⟩) :
    ∃ g, Agent.topAfterJump c.state t f target = some g ∧ Reaches c.state.caller g target ∧
      (g = target ∨ c.state.caller f = some g) := by
  have landed (first : c.state.top t = some target) : ∃ g, Agent.topAfterJump c.state t f target = some g ∧
      Reaches c.state.caller g target ∧ (g = target ∨ c.state.caller f = some g) := by
    have stays : ¬ (some target = some f ∧ f ≠ target) := fun leaves => leaves.2 (Option.some.inj leaves.1).symm
    exact ⟨target, by rw [Agent.topAfterJump, first, if_neg stays], .refl, .inl rfl⟩
  obtain top | ⟨h, first, same | ⟨_, same⟩⟩ := intact.top_of_answer member
  · by_cases made : c.state.ReadyMade f
    · obtain ⟨answer, rest, same, honours⟩ := intact.prompt _ member List.mem_cons_self made
      cases same
      exact landed (honours.jumps rfl)
    · have on : c.picture.OnChain t target := careful.2 t f after stack rfl made
      obtain ⟨b, base, way⟩ := on
      obtain rfl : f = b := Option.some.inj (top.symm.trans ((base_inside (intact.sound.inside member)).symm.trans base))
      obtain rfl | ⟨g, link, way⟩ := way.cases_caller
      · exact landed top
      · have other : f ≠ target := by
          rintro rfl
          exact intact.sound.warded.acyclic.not_caller_reaches link way
        exact ⟨g, by rw [Agent.topAfterJump, if_pos ⟨top, other⟩]; exact link, way, .inr link⟩
  · cases same
  · cases same
    exact landed first

theorem jump_safe (intact : c.Intact) {target : FrameId} {value : V}
    (member : ⟨.code (.answer (.jump target value)), .frame t f after :: stack⟩ ∈ c.agents)
    (careful : c.Careful ⟨.code (.answer (.jump target value)), .frame t f after :: stack⟩)
    (focus : Focus V C) : Safe ((⟨c.state, focus, stack⟩ : Config V C).jump t f target value after) := by
  have sound := intact.sound
  have acyclic : Acyclic c.state.caller := sound.warded.acyclic
  have inside : c.stage t = some (.inside f) := sound.inside member
  obtain ⟨task, found, live, calm⟩ := intact.calm_of_answer member (by simp)
  obtain ⟨g, leaves, way, place⟩ := intact.way_of_jump member careful
  have on : c.picture.OnChain t g := ((sound.jumped member).2 g leaves).1
  have known : c.picture.known target := sound.warded.known_of_reaches (sound.known_of_onChain on) way
  obtain ⟨frame, code⟩ : ∃ frame, c.state.frames.get? f = some frame :=
    Option.isSome_iff_exists.1 (sound.warded.inside inside).1
  obtain ⟨above, below, chain⟩ := List.append_of_mem ((mem_chain_iff acyclic known).2 way)
  have whole : c.state.chainOf (some g) = above ++ target :: below := chain
  have walk : c.state.framesAbove (some g) target = some above := framesAbove_of_chain acyclic whole
  have apart : target ∉ above := notMem_of_chainOf acyclic whole
  rw [Config.jump_eq found live code (leaves.symm ▸ walk) apart, leaves]
  refine Config.cancelNext_safe (fun h first => ?_) target value
  obtain ⟨rest, rfl⟩ := List.head?_eq_some_iff.1 first
  obtain rfl : h = g := Option.some.inj (framesAbove_some walk).1
  have link : c.state.caller f = some h := place.resolve_left fun same => apart (same ▸ List.mem_cons_self)
  have moved := becomes_modifyTask found fun task => { task with top := some h }
  refine .of_held (intact.orderly.balanced.modifyTask found fun _ => rfl) acyclic ⟨_, moved.self, live, calm⟩ fun code => ?_
  have guarded : c.state.code? h = some (.guard _ _) := code
  obtain rfl := sound.warded.beneath (.inr inside) link (guard?_of_code? guarded)
  exact ⟨rfl, sound.owner_of_held on guarded⟩

theorem deliver_safe (intact : c.Intact) (member : ⟨.code (.answer answer), stack⟩ ∈ c.agents)
    (careful : c.Careful ⟨.code (.answer answer), stack⟩) (focus : Focus V C) :
    Safe ((⟨c.state, focus, stack⟩ : Config V C).deliver answer) := by
  cases stack with
  | nil => exact .pure _
  | cons activation behind =>
    cases activation with
    | call next => exact .pure _
    | opened x => exact .pure _
    | frame t f after =>
      cases answer with
      | done value => exact intact.finishFrame_safe member (.inl ⟨value, rfl⟩) (.ok value) focus
      | throw error => exact intact.finishFrame_safe member (.inr ⟨error, rfl⟩) (.error error) focus
      | suspended => exact intact.suspendRun_safe member careful focus
      | jump target value => exact intact.jump_safe member careful focus
    | cancel t doomed target value after =>
      refine Config.cancelNext_safe (fun f first => ?_) target value
      obtain ⟨rest, rfl⟩ := List.head?_eq_some_iff.1 first
      exact intact.admits_cancelled member

/-! ## Steps -/

theorem resumeTop_safe (intact : c.Intact) (member : ⟨.trampoline t after, stack⟩ ∈ c.agents)
    (guarded : c.Guarded ⟨.trampoline t after, stack⟩) :
    Safe ((⟨c.state, .trampoline t after, stack⟩ : Config V C).resumeTop t after) := by
  have run := Agent.next_mem_runs t after stack
  obtain ⟨task, found, live⟩ := Orderly.get?_of_run intact.sound member run
  refine .bind (.task t) fun task' found' => ?_
  obtain rfl := Option.some.inj (found.symm.trans (task_ok.1 found'))
  split
  · next first =>
    -- A task that is not at its end has a frame to go on at.
    obtain ⟨f, anchor⟩ := intact.ripe.anchored found (by simp [live, Life.isTerminal])
    have top : c.state.top t = some f := (anchor_next (intact.sound.stage_of_run member run)).symm.trans anchor
    cases first.symm.trans ((top_of_get? found).symm.trans top)
  · next f first => exact Config.resumeFrame_safe (intact.admits_next member guarded found first) _ _

omit [Inhabited V] in
/-- A task opens a payload that it may open only if the payload is closed. -/
theorem mayOpen_safe (intact : c.Intact) {x : ExclusiveId} {inside : Program V C}
    {next : Option (Answer V) → Program V C} (member : ⟨.code (.within x t inside next), stack⟩ ∈ c.agents)
    (careful : c.Careful ⟨.code (.within x t inside next), stack⟩) : Safe (c.state.mayOpen x t) := by
  refine .bind (.exclusive x) fun exclusive found => ?_
  split
  · next owns =>
    obtain ⟨⟨s, head⟩, unopened⟩ := careful.2
    obtain ⟨others, line⟩ := List.head?_eq_some_iff.1 head
    have closed := Occupied.closed intact.occupied intact.sound member line (.inr ⟨rfl, unopened⟩)
      (exclusive_ok.1 found) (owns_iff.1 owns)
    exact .check (by simp [closed]) (.pure _)
  · exact .pure _

theorem step_safe (intact : c.Intact) (member : a ∈ c.agents) (careful : c.Careful a) :
    Safe (a.config c.state).step := by
  have balanced := intact.orderly.balanced
  obtain ⟨focus, stack⟩ := a
  cases focus with
  | trampoline t after => exact intact.resumeTop_safe member careful.guarded
  | drain s runs next => exact Config.runReady_safe balanced s _ _
  | work s index => exact Config.runReady_safe balanced s _ _
  | own t index =>
    obtain ⟨task, found, ready⟩ := Option.map_eq_some_iff.1 careful.2
    exact Config.beginRun_safe found ready _
  | rest => exact .pure _
  | waiting condition limit next => exact Config.keepWaiting_safe balanced condition next
  | code program =>
    cases program with
    | answer answer => exact intact.deliver_safe member careful _
    | unwind => exact careful.guarded.elim
    | ask request next =>
      exact .bind (careful.serve_safe intact.sound intact.orderly member) fun _ _ => .pure _
    | newFrame | newActor | drive | await => exact .pure _
    | register g name native next => exact .bind (.bind (.registry g) fun _ _ => .pure _) fun _ _ => .pure _
    | callNative g name context arguments next =>
      refine .bind (.registry g) fun registry _ => ?_
      split
      · exact .pure _
      · exact .pure _
    | within x t inside next =>
      refine .bind (intact.mayOpen_safe member careful) fun may _ => ?_
      split
      · exact .pure _
      · exact .pure _

end Intact

namespace Run

/-- In a run of disciplined threads, no thread that is disciplined meets a fault at its next step, unless something is
named that does not exist. -/
theorem steps_safely (run : Run V C Disciplined) {i : Nat} (bound : i ≤ run.length) {a : Agent V C}
    (member : a ∈ (run.crew i).agents) (disciplined : (run.crew i).Disciplined a) :
    Safe (a.config (run.crew i).state).step := by
  have intact : (run.crew i).Intact := run.careful.intact bound
  have pledged : (run.crew i).Pledged := (run.careful_steps bound).2
  exact intact.step_safe member (pledged.careful intact.sound disciplined)

omit [Inhabited V] in
/-- A frame is idle if the walks down all chains end without it. -/
theorem idle_of_missed {c : Crew V C} {f : FrameId} (known : c.picture.known f) (bound : Nat)
    (missed : ∀ t b, c.picture.base t = some b → f ∉ c.state.chainUpTo bound b ∧
      (c.state.chainUpTo bound b).length ≠ bound) (insides : ∀ t, c.stage t ≠ some (.inside f))
    (unresumed : ∀ r phase, c.state.guard? f = some (r, phase) → ∃ body, phase = .start body) :
    c.picture.Idle f := by
  refine ⟨known, ?_, fun {r phase} => unresumed r phase⟩
  rintro t (⟨b, base, way⟩ | inside)
  · obtain ⟨apart, short⟩ := missed t b base
    exact (mem_chainUpTo_or way bound).elim apart fun long => short long.1
  · exact insides t inside

/-! ### The baton

The body of the first task's guard puts another frame in its place and yields, so that the second task gets in line
for the resource.  The second task is handed the resource when the first one is done. -/

def baton : Program Unit Empty :=
  let ends : Body Unit Empty := fun _ _ _ => .answer (.done ())
  .ask (.newResource none) fun r =>
  .newFrame "rest" ends fun rest =>
  .newFrame "first" (fun context _ _ =>
    .ask (.frame context.frame) fun view => .ask (.attach rest view.caller) fun _ =>
    .ask (.pause context.task rest) fun _ => .ask (.yield context.task) fun _ => .answer .suspended) fun first =>
  .ask (.newGuard r first) fun guard =>
  .newFrame "second" ends fun second =>
  .ask (.newGuard r second) fun guard' =>
  .ask .newRegistry fun g =>
  .ask (.newScheduler .manual g) fun
    | .error _ => .answer .suspended
    | .ok s => .ask (.spawn s guard) fun
      | .error _ => .answer .suspended
      | .ok t => .ask (.spawn s guard') fun
        | .error _ => .answer .suspended
        | .ok u => .ask (.start t) fun _ => .ask (.start u) fun _ =>
          .drive s fun _ => .answer (.done ())

/-- The host of the two tasks after so many steps. -/
def batonHost (n : Nat) : Config Unit Empty := (Config.start (.initial 1) baton).after n

theorem baton_ok : ∀ n < 39, (batonHost n).step.isOk = true := by decide +kernel

theorem baton_fresh {n f : Nat}
    (at' : (n, f) ∈ [(3, 2), (5, 4), (8, 3), (9, 5), (14, 2), (18, 1), (19, 1), (31, 4)]) :
    (batonHost n).alone.Fresh ⟨f⟩ := by
  simp only [List.mem_cons, Prod.mk.injEq, List.not_mem_nil, or_false] at at'
  suffices (batonHost n).alone.picture.known ⟨f⟩ ∧ (∀ h, (batonHost n).state.caller h ≠ some ⟨f⟩) ∧
      (∀ t b, (batonHost n).alone.picture.base t = some b → ⟨f⟩ ∉ (batonHost n).state.chainUpTo 3 b ∧
        ((batonHost n).state.chainUpTo 3 b).length ≠ 3) ∧
      (∀ t, (batonHost n).alone.stage t ≠ some (.inside ⟨f⟩)) ∧
      ∀ r phase, (batonHost n).state.guard? ⟨f⟩ = some (r, phase) → ∃ body, phase = .start body by
    obtain ⟨known, roots, missed, insides, unresumed⟩ := this
    exact ⟨idle_of_missed known 3 missed insides unresumed, roots⟩
  obtain ⟨rfl, rfl⟩ | ⟨rfl, rfl⟩ | ⟨rfl, rfl⟩ | ⟨rfl, rfl⟩ | ⟨rfl, rfl⟩ | ⟨rfl, rfl⟩ | ⟨rfl, rfl⟩ | ⟨rfl, rfl⟩ := at'
  all_goals
    refine ⟨rfl, ?_, ?_, ?_, ?_⟩
    · rintro ⟨_ | _ | _ | _ | _ | _ | n⟩ <;> nofun
    · rintro ⟨_ | _ | _ | n⟩ b ⟨⟩ <;> decide +kernel
    · rintro ⟨_ | _ | _ | n⟩ <;> nofun
    · rintro r phase ⟨⟩ <;> exact ⟨_, rfl⟩

theorem baton_spawns {n f : Nat} (at' : (n, f) ∈ [(8, 3), (9, 5)]) :
    ∀ g, Reaches (batonHost n).state.caller ⟨f⟩ g → (batonHost n).alone.picture.Idle g := by
  intro g way
  simp only [List.mem_cons, Prod.mk.injEq, List.not_mem_nil, or_false] at at'
  obtain rfl | ⟨h, link, _⟩ := way.cases_caller
  · obtain ⟨rfl, rfl⟩ | ⟨rfl, rfl⟩ := at'
    · exact (baton_fresh (by simp)).idle
    · exact (baton_fresh (by simp)).idle
  · obtain ⟨rfl, rfl⟩ | ⟨rfl, rfl⟩ := at' <;> cases link

/-- What is asked of the host where it runs no trampoline. -/
theorem baton_proper : ∀ n < 39, (∀ t after, (batonHost n).agent.focus ≠ .trampoline t after) →
    Proper (batonHost n).alone (batonHost n).agent := by
  intro n bound elsewhere
  refine ⟨?_, ?_⟩
  · interval_cases n
    case «8» => exact baton_spawns (f := 3) (by simp)
    case «9» => exact baton_spawns (f := 5) (by simp)
    case «18» =>
      refine .inr ⟨?_, .inl (baton_fresh (f := 1) (by simp)).idle⟩
      rintro k ⟨⟩
      refine ⟨rfl, ?_⟩
      rintro r phase ⟨⟩
      exact .inl rfl
    case «19» =>
      refine ⟨.inside ⟨2⟩, rfl, .inl (baton_fresh (f := 1) (by simp)).idle, ?_⟩
      rintro g ⟨⟩
      exact .inr (.inr rfl)
    case «14» | «16» | «23» | «26» | «28» | «31» | «33» | «35» => exact absurd rfl (elsewhere _ _)
    all_goals trivial
  · interval_cases n
    case «20» => exact ⟨⟨⟨2⟩, rfl⟩, Agent.heads_frame.2 rfl⟩
    all_goals trivial

theorem baton_unsent {n : Nat} (early : n < 21) {m : FrameId} {a : ActorId} : ¬ (batonHost n).state.Undelivered m a := by
  rintro ⟨message, code⟩
  obtain ⟨_ | _ | _ | _ | _ | _ | k⟩ := m <;> interval_cases n <;> cases code

/-- The guards are to call the two bodies, the first of them only until its task runs. -/
theorem baton_awaited {n : Nat} (early : n < 21) {g b : FrameId} (awaits : (batonHost n).state.awaited? g = some b) :
    b = ⟨2⟩ ∧ 3 < n ∧ n < 15 ∨ b = ⟨4⟩ ∧ 5 < n := by
  obtain ⟨_ | _ | _ | _ | _ | _ | k⟩ := g <;> interval_cases n <;> cases awaits <;> decide

theorem baton_shuns {n f : Nat} (at' : (n, f) ∈ [(3, 2), (5, 4)]) : (batonHost n).alone.Shuns ⟨f⟩ := by
  simp only [List.mem_cons, Prod.mk.injEq, List.not_mem_nil, or_false] at at'
  obtain ⟨rfl, rfl⟩ | ⟨rfl, rfl⟩ := at'
  all_goals
    refine ⟨⟨?_, (baton_fresh (by simp)).uncalled⟩, fun agent member => ?_⟩
    · rintro ⟨_ | k⟩ <;> nofun
    · obtain rfl := List.mem_singleton.1 member
      nofun

theorem baton_careful : ∀ n < 39, (∀ t after, (batonHost n).agent.focus ≠ .trampoline t after) →
    Careful (batonHost n).alone (batonHost n).agent := by
  intro n bound elsewhere
  refine ⟨baton_proper n bound elsewhere, ?_⟩
  have unsent {request : Request Unit Empty} (early : n < 21) :
      ∀ m b, (batonHost n).state.Undelivered m b → ¬ request.Mentions m :=
    fun m b undelivered => absurd undelivered (baton_unsent early)
  have fresh {f : Nat} := @baton_fresh n f
  interval_cases n
  case «0» | «6» | «7» | «17» | «20» => exact ⟨trivial, unsent (by decide)⟩
  case «3» => exact ⟨fresh (f := 2) (by simp), unsent (by decide)⟩
  case «5» => exact ⟨fresh (f := 4) (by simp), unsent (by decide)⟩
  case «8» => exact ⟨fresh (f := 3) (by simp), unsent (by decide)⟩
  case «9» => exact ⟨fresh (f := 5) (by simp), unsent (by decide)⟩
  case «10» | «11» => exact ⟨rfl, unsent (by decide)⟩
  case «18» => exact ⟨⟨fresh (f := 1) (by simp), nofun⟩, unsent (by decide)⟩
  case «19» =>
    -- The frame that has put another one in its place yields and suspends.
    refine ⟨⟨(fresh (f := 1) (by simp)).idle, ?_⟩, unsent (by decide)⟩
    rintro g ⟨⟩
    exact ⟨⟨_, rfl⟩, Agent.heads_ask.2 ⟨rfl, fun _ => Agent.heads_frame.2 (.inl rfl)⟩⟩
  case «21» =>
    rintro t f after rest ⟨⟩ _
    exact ⟨_, rfl, rfl⟩
  case «15» | «24» | «32» =>
    -- Nothing is asked of guards.
    rintro t f after rest ⟨⟩ other
    exact absurd ⟨_, rfl, rfl⟩ other
  case «27» | «29» | «34» | «36» =>
    rintro t f after rest ⟨⟩ _
    trivial
  case «38» =>
    rintro t f after rest ⟨⟩
  all_goals trivial

theorem baton_unmentioned {n : Nat} (bound : n < 39) (request : Request Unit Empty)
    (next : request.Reply → Program Unit Empty) (focus : (batonHost n).agent.focus = .code (.ask request next)) :
    ∀ g b, (batonHost n).state.awaited? g = some b → ¬ request.Mentions b := by
  intro g b awaits mentions
  obtain early | late := Nat.lt_or_ge n 21
  · have bodies := baton_awaited early awaits
    interval_cases n
    case «3» => simp at bodies
    case «5» =>
      cases focus
      obtain ⟨rfl, _⟩ | ⟨_, late⟩ := bodies
      · cases mentions
      · simp at late
    case «8» | «9» | «19» =>
      cases focus
      obtain ⟨rfl, _⟩ | ⟨rfl, _⟩ := bodies <;> cases mentions
    case «18» =>
      cases focus
      obtain ⟨rfl, _⟩ | ⟨rfl, _⟩ := bodies <;> obtain ⟨⟨⟩⟩ | ⟨⟨⟩⟩ := mentions
    all_goals
      cases focus
      try exact mentions.elim
  · interval_cases n <;> cases focus

theorem baton_bodies {n : Nat} (bound : n < 39) (r : ResourceId) (body : FrameId)
    (next : FrameId → Program Unit Empty)
    (focus : (batonHost n).agent.focus = .code (.ask (.newGuard r body) next)) : (batonHost n).alone.Shuns body := by
  interval_cases n <;> cases focus
  · exact baton_shuns (f := 2) (by simp)
  · exact baton_shuns (f := 4) (by simp)

theorem baton_disciplined : ∀ n < 39, Disciplined (batonHost n).alone (batonHost n).agent := fun n bound =>
  .of_careful (baton_careful n bound) (baton_unmentioned bound) (baton_bodies bound)

def batonRun : Run Unit Empty Disciplined := .ofHost 1 baton 39 baton_ok baton_disciplined

theorem baton_passes : (batonRun.crew 26).state.waiters ⟨1⟩ = [⟨2⟩] ∧ (batonRun.crew 30).state.owner ⟨1⟩ = some ⟨2⟩ ∧
    ∀ n < 39, Safe (batonHost n).step :=
  ⟨rfl, rfl, fun n bound => batonRun.steps_safely (Nat.succ_le_succ bound.le) List.mem_cons_self
    (baton_disciplined n bound)⟩

end Run

end Crew

end Tasking
