import Tasking.Proofs.Following
import Tasking.Proofs.Passing.Clearing
import Tasking.Proofs.Passing.Shifting

/-! # Discipline

What programs keep to whose bookkeeping never breaks.  Besides being proper, they start a task once, put
only fresh frames on chains, and answer as they said they would: a frame suspends if its task has
arranged to be woken, jumps to frames of its own chain, and a frame that put another one on top suspends
or jumps there.  They open a payload for their own task, and not while the same code has it open.

Nothing is asked of ready-made frames: how guards and joins answer follows from their code.  Nobody but
the guard that delivers a message has to do with the frame that the message is in.

Careful threads call the bodies of guards only while these are on no chain.  Disciplined ones see to that when they
create the guards.
-/

namespace Tasking

variable {V C : Type}

/-- The code of guards and joins, which the host does not write. -/
def Frame.Code.isReadyMade {B : Type} : Frame.Code V B → Bool
  | .guard _ _ | .join _ _ => true
  | .host _ | .message _ _ _ => false

/-- The requests that put a frame on top of a chain. -/
def Request.pauses : Request V C → Bool
  | .pause _ _ => true
  | _ => false

/-- The payloads that are open for the code in focus. -/
def Activation.payloads : List (Activation V C) → List ExclusiveId
  | .opened x :: rest => x :: payloads rest
  | .call _ :: rest => payloads rest
  | _ => []

namespace State

/-- A frame is a guard or a join. -/
def ReadyMade (st : State V C) (f : FrameId) : Prop :=
  ∃ code, st.code? f = some code ∧ code.isReadyMade = true

/-- A frame has yet to deliver a message to an actor. -/
def Undelivered (st : State V C) (f : FrameId) (a : ActorId) : Prop :=
  ∃ message, st.code? f = some (.message a message false)

end State

/-- The frame that the thread runs will suspend its task or jump to another frame, and put nothing more
on top of the chain until then. -/
def Agent.Leads (a : Agent V C) (t : TaskId) (h : FrameId) : Prop :=
  (∃ f, a.runs.head? = some (t, .inside f)) ∧
    a.Heads (fun request => request.pauses = false)
      fun answer => answer = .suspended ∨ ∃ value, answer = .jump h value

namespace Crew

/-- A frame may be put on a chain, and no frame returns to it. -/
structure Fresh (c : Crew V C) (f : FrameId) : Prop where
  idle : c.picture.Idle f
  uncalled : ∀ h, c.state.caller h ≠ some f

/-- What careful programs may ask for, and how they may go on. -/
def Consents (c : Crew V C) (stack : List (Activation V C)) :
    (request : Request V C) → (request.Reply → Program V C) → Prop
  | .spawn _ entry, _ | .spawnBound _ entry, _ => c.Fresh entry
  | .start t, _ => c.state.life t = some .init
  | .newGuard _ body, _ => c.Fresh body
  | .attach f caller, _ => c.Fresh f ∧ caller ≠ some f
  | .pause t f, next => c.picture.Idle f ∧
      ∀ g, (stack.filterMap Activation.run?).head? = some (t, .inside g) →
        Agent.Leads ⟨.code (next ()), stack⟩ t f
  | _, _ => True

/-- How a frame of a task may answer that the host wrote. -/
def MayAnswer (c : Crew V C) (t : TaskId) : Answer V → Prop
  | .suspended => ∃ task, c.state.tasks.get? t = some task ∧ task.arranged = true
  | .jump target _ => c.picture.OnChain t target
  | _ => True

/-- What careful programs keep to.  A thread that has a task to itself waits until the task is ready. -/
def Careful (c : Crew V C) (a : Agent V C) : Prop :=
  c.Proper a ∧
  match a.focus with
  | .code (.ask request next) =>
    c.Consents a.stack request next ∧ ∀ m b, c.state.Undelivered m b → ¬ request.Mentions m
  | .code (.within x t _ _) => (∃ s, a.runs.head? = some (t, s)) ∧ x ∉ Activation.payloads a.stack
  | .code (.answer answer) => ∀ t f after rest, a.stack = .frame t f after :: rest →
      ¬ c.state.ReadyMade f → c.MayAnswer t answer
  | .own t _ => c.state.life t = some .ready
  | _ => True

theorem Careful.proper {c : Crew V C} {a : Agent V C} (careful : c.Careful a) : c.Proper a :=
  careful.1

theorem Careful.guarded {c : Crew V C} {a : Agent V C} (careful : c.Careful a) : c.Guarded a :=
  careful.1.1

theorem Careful.consents {c : Crew V C} {request : Request V C} {next : request.Reply → Program V C}
    {stack : List (Activation V C)} (careful : c.Careful ⟨.code (.ask request next), stack⟩) :
    c.Consents stack request next := careful.2.1

/-- Frames with messages that are still to be delivered are left alone. -/
theorem Careful.unmentioned {c : Crew V C} {a : Agent V C} (careful : c.Careful a) {m : FrameId}
    {b : ActorId} (undelivered : c.state.Undelivered m b) (request : Request V C)
    (next : request.Reply → Program V C) (focus : a.focus = .code (.ask request next)) :
    ¬ request.Mentions m := by
  have keeps := careful.2
  rw [focus] at keeps
  exact keeps.2 m b undelivered

/-- What disciplined programs keep to.  They are careful, but they know nothing of the frame at which a task goes on.
A guard gets a body that nobody has to do with, and until the guard calls it, the body is left alone. -/
def Disciplined (c : Crew V C) (a : Agent V C) : Prop :=
  match a.focus with
  | .trampoline _ _ => True
  | .code (.ask request _) => c.Careful a ∧ (∀ g b, c.state.awaited? g = some b → ¬ request.Mentions b) ∧
      ∀ r body, request = .newGuard r body → c.Shuns body
  | _ => c.Careful a

theorem Disciplined.of_careful {c : Crew V C} {a : Agent V C}
    (careful : (∀ t after, a.focus ≠ .trampoline t after) → c.Careful a)
    (unmentioned : ∀ request next, a.focus = .code (.ask request next) →
      ∀ g b, c.state.awaited? g = some b → ¬ request.Mentions b)
    (shuns : ∀ r body next, a.focus = .code (.ask (.newGuard r body) next) → c.Shuns body) : c.Disciplined a := by
  obtain ⟨focus, stack⟩ := a
  cases focus with
  | trampoline t after => trivial
  | code program =>
    cases program with
    | ask request next =>
      refine ⟨careful nofun, unmentioned request next rfl, ?_⟩
      rintro r body rfl
      exact shuns r body next rfl
    | _ => exact careful nofun
  | _ => exact careful nofun

/-- Bodies of guards are left alone. -/
theorem Disciplined.unmentioned {c : Crew V C} {a : Agent V C} (disciplined : c.Disciplined a) {g b : FrameId}
    (awaits : c.state.awaited? g = some b) (request : Request V C) (next : request.Reply → Program V C)
    (focus : a.focus = .code (.ask request next)) : ¬ request.Mentions b := by
  unfold Disciplined at disciplined
  rw [focus] at disciplined
  exact disciplined.2.1 g b awaits

theorem Disciplined.shuns {c : Crew V C} {a : Agent V C} (disciplined : c.Disciplined a) {r : ResourceId}
    {body : FrameId} {next : FrameId → Program V C} (focus : a.focus = .code (.ask (.newGuard r body) next)) :
    c.Shuns body := by
  unfold Disciplined at disciplined
  rw [focus] at disciplined
  exact disciplined.2.2 r body rfl

end Crew

/-! ## Code that leads to an answer -/

namespace Agent

variable {stack : List (Activation V C)} {t : TaskId} {h : FrameId}

theorem heads_newFrame {may : Request V C → Prop} {ends : Answer V → Prop} {label : String} {body : Body V C}
    {next : FrameId → Program V C} : Agent.Heads may ends ⟨.code (.newFrame label body next), stack⟩ ↔
      ∀ f, Agent.Heads may ends ⟨.code (next f), stack⟩ := by
  simp only [heads_code]
  rfl

theorem heads_newActor {may : Request V C → Prop} {ends : Answer V → Prop} {first : V} {handler : Handler V C}
    {next : ActorId → Program V C} : Agent.Heads may ends ⟨.code (.newActor first handler next), stack⟩ ↔
      ∀ a, Agent.Heads may ends ⟨.code (next a), stack⟩ := by
  simp only [heads_code]
  rfl

theorem heads_register {may : Request V C → Prop} {ends : Answer V → Prop} {g : RegistryId} {name : String}
    {native : Native V C} {next : Except HostError Symbol → Program V C} :
    Agent.Heads may ends ⟨.code (.register g name native next), stack⟩ ↔
      ∀ reply, Agent.Heads may ends ⟨.code (next reply), stack⟩ := by
  simp only [heads_code]
  rfl

/-- Code that lets others run comes to no answer yet. -/
theorem not_heads_of_detours {may : Request V C → Prop} {ends : Answer V → Prop} {focus : Focus V C}
    (detours : focus.Detours) : ¬ Agent.Heads may ends ⟨focus, stack⟩ := by
  rintro ⟨program, same, heads⟩
  exact (detours.2 program same).2 _ _ heads

theorem Leads.pauses {request : Request V C} {next : request.Reply → Program V C}
    (leads : Agent.Leads ⟨.code (.ask request next), stack⟩ t h) : request.pauses = false :=
  (heads_ask.1 leads.2).1

theorem Leads.answers {answer : Answer V} {f : FrameId} {after : Focus V C} {u : TaskId}
    (leads : Agent.Leads ⟨.code (.answer answer), .frame u f after :: stack⟩ t h) :
    answer = .suspended ∨ ∃ value, answer = .jump h value := heads_frame.1 leads.2

end Agent

/-! ## Steps at which nothing happens -/

namespace Crew

variable {c c' : Crew V C}

/-- Nobody made a step: a thread joined, or waits no longer, or another one is the running one. -/
structure Lulls (c c' : Crew V C) : Prop where
  state : ∃ thread, c'.state = { c.state with running := thread }
  runs : c'.runs = c.runs
  back : ∀ {a}, a ∈ c'.agents → a ∈ c.agents ∨ a.focus.run? = none ∧
    (a.stack = [] ∨ ∃ focus : Focus V C, (∀ program, focus ≠ .code program) ∧ focus.run? = none ∧
      ⟨focus, a.stack⟩ ∈ c.agents)
  forth : ∀ {a}, a ∈ c.agents → a ∈ c'.agents ∨
    (∀ program, a.focus ≠ .code program) ∧ ∃ b ∈ c'.agents, b.stack = a.stack

theorem Lulls.stage (lulls : c.Lulls c') : c'.stage = c.stage := by
  unfold Crew.stage
  rw [lulls.runs]

theorem Lulls.picture (lulls : c.Lulls c') : c'.picture = c.picture := by
  obtain ⟨thread, state⟩ := lulls.state
  unfold Crew.picture
  rw [state, lulls.stage]
  rfl

variable [Inhabited V] {allowed : Crew V C → Agent V C → Prop}

/-- A step of a crew is a step of a thread, or nothing happens. -/
theorem Step.acts_or_lulls {label : Option (TaskId × FrameId)} (step : Step allowed c label c') :
    (∃ st before behind agent config, c = ⟨st, before ++ agent :: behind⟩ ∧ allowed c agent ∧
      (agent.config st).step = .ok config ∧ label = agent.resumed? st ∧
      c' = ⟨config.state, before ++ config.agent :: behind⟩) ∨ c.Lulls c' := by
  cases step with
  | @act st before behind agent config permitted step =>
    exact .inl ⟨st, before, behind, agent, config, rfl, permitted, step, rfl, rfl⟩
  | @join st agents agent new =>
    refine .inr ⟨⟨st.running, rfl⟩, ?_, fun {b} member => ?_, fun {b} member => ?_⟩
    · cases new <;> simp [Crew.runs, Agent.runs, Focus.run?]
    · rcases List.mem_append.1 member with old | isNew
      · exact .inl old
      · obtain rfl := List.mem_singleton.1 isNew
        cases new <;> exact .inr ⟨rfl, .inl rfl⟩
    · exact .inl (List.mem_append_left _ member)
  | @lapse st before behind condition limit next stack =>
    refine .inr ⟨⟨st.running, rfl⟩, ?_, fun {b} member => ?_, fun {b} member => ?_⟩
    · simp [Crew.runs, Agent.runs, Focus.run?]
    · rcases @mem_replace _ _ before behind ⟨st, .code next, stack⟩ b member with rfl | old
      · exact .inr ⟨rfl, .inr ⟨.waiting condition limit next, by simp, rfl, by simp [Config.agent]⟩⟩
      · exact .inl (mem_original old)
    · simp only [List.mem_append, List.mem_cons] at member
      rcases member with early | rfl | late
      · exact .inl (by simp [early])
      · exact .inr ⟨by simp, ⟨.code next, stack⟩, by simp, rfl⟩
      · exact .inl (by simp [late])
  | @switch st agents thread =>
    exact .inr ⟨⟨thread, rfl⟩, rfl, fun member => .inl member, fun member => .inl member⟩

/-- At every step of a run, a thread makes a step or nothing happens. -/
theorem Run.acts_or_lulls {run : Run V C allowed} {k : Nat} (bound : k < run.length) :
    (∃ st before agent behind config, run.Acts k st before agent behind config) ∨
      (run.crew k).Lulls (run.crew (k + 1)) := by
  obtain ⟨st, before, behind, agent, config, crew, permitted, step, label, next⟩ | lulls :=
    (run.steps k bound).acts_or_lulls
  · rw [crew] at permitted
    exact .inl ⟨st, before, agent, behind, config, bound, crew, permitted, step, label, next⟩
  · exact .inr lulls

end Crew

end Tasking
