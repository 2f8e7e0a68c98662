import Mathlib.Tactic.IntervalCases
import Tasking.Proofs.Calling
import Tasking.Proofs.Order

/-! # The run of a task is an evaluation

A task whose frames are in direct style does what evaluating its entry frame does.  Both directions
speak of an arbitrary chain below the frame that is evaluated: from where the frame is resumed, an
evaluation is a run up to where some frame in its place finishes with the result of the evaluation.

A frame must not go on in a frame that waits for its result.  To an evaluation that is all the same, but a
chain cannot have a frame twice, and the runtime refuses (`Crew.relapse_stuck`).
-/

namespace Tasking

variable {V C : Type}

/-! ## Reading -/

namespace State

variable [Inhabited V] {st : State V C} {t : TaskId} {f : FrameId} {below : List FrameId}

theorem Inside.withCells (inside : st.Inside t f below) (cells : Table .cell C) :
    ({ st with cells := cells } : State V C).Inside t f below where
  stands := ⟨inside.stands.balanced.of_tables rfl rfl fun _ => rfl, inside.stands.acyclic,
    inside.stands.task⟩
  linked := inside.linked.congr fun _ _ => rfl
  known := inside.known

/-- The state with another frame, which is on no chain. -/
def withFrame (st : State V C) (label : String) (body : Body V C) : State V C :=
  (st.addFrame ⟨label, none, .host body⟩).2

omit [Inhabited V] in
theorem caller_withFrame (st : State V C) (label : String) (body : Body V C) :
    (st.withFrame label body).caller = st.caller := by
  funext g
  simp only [caller, withFrame, addFrame, Table.get?_add_eq]
  split
  · next fresh => simp [fresh]
  · rfl

omit [Inhabited V] in
theorem memory_withFrame (st : State V C) (label : String) (body : Body V C) :
    (st.withFrame label body).memory = st.memory.addFrame body := by
  have code : (fun g => ((st.withFrame label body).frames.get? g).map Frame.code) =
      Function.update (fun g => (st.frames.get? g).map Frame.code) st.frames.next (some (.host body)) := by
    funext g
    simp only [withFrame, addFrame, Table.get?_add_eq, Function.update_apply]
    split <;> rfl
  simp only [memory, Memory.addFrame, code, Memory.mk.injEq, true_and]
  exact ⟨rfl, by simp [withFrame, addFrame, Table.next, Table.add]⟩

theorem Inside.withFrame (inside : st.Inside t f below) (label : String) (body : Body V C) :
    (st.withFrame label body).Inside t f below where
  stands := by
    refine ⟨inside.stands.balanced.of_tables rfl rfl fun _ => rfl, ?_, inside.stands.task⟩
    rw [caller_withFrame]
    exact inside.stands.acyclic
  linked := inside.linked.congr fun _ _ => by rw [caller_withFrame]
  known := by
    obtain ⟨frame, found⟩ := Option.isSome_iff_exists.1 inside.known
    have old : f ≠ st.frames.next := Table.ne_next_of_get? found
    rw [State.withFrame, addFrame, Table.get?_add_eq, if_neg old, found]
    rfl

end State

namespace Config

variable [Inhabited V] {st : State V C} {t : TaskId} {f : FrameId} {below : List FrameId} {after : Focus V C}
  {stack : List (Activation V C)} {p p' : Program V C} {m m' : Memory V C}

theorem Steps.newFrame {n : Nat} {c' : Config V C} {trace : List (Resume V)} {label : String}
    {body : Body V C} {next : FrameId → Program V C} (going : st.isOver t = false)
    (later : (⟨st.withFrame label body, .code (next st.frames.next), stack⟩ : Config V C).Steps t n trace c') :
    (⟨st, .code (.newFrame label body next), stack⟩ : Config V C).Steps t (n + 1) trace c' :=
  Steps.step going rfl later

/-- What code does before it ends, it does to the state. -/
theorem steps_reads (reads : m.Reads p m' p') (inside : st.Inside t f below) (here : st.memory = m) :
    ∃ n st', (⟨st, .code p, stack⟩ : Config V C).Steps t n [] ⟨st', .code p', stack⟩ ∧
      st'.memory = m' ∧ st'.Inside t f below := by
  induction reads generalizing st with
  | here => exact ⟨0, st, .none, here, inside⟩
  | @newCell m m' p content next rest inductionHypothesis =>
    subst here
    obtain ⟨n, st', steps, there, inside'⟩ :=
      inductionHypothesis (inside.withCells (st.cells.add content)) rfl
    exact ⟨n + 1, st', .ask inside.stands.going rfl steps, there, inside'⟩
  | @read m m' p i content next found rest inductionHypothesis =>
    subst here
    obtain ⟨n, st', steps, there, inside'⟩ := inductionHypothesis inside rfl
    have served : st.serve (.read i) = .ok (content, st) := by
      simp only [State.serve, bind_ok]
      exact ⟨content, State.find_ok.2 found, rfl⟩
    exact ⟨n + 1, st', .ask inside.stands.going served steps, there, inside'⟩
  | @write m m' p i content next rest inductionHypothesis =>
    subst here
    obtain ⟨n, st', steps, there, inside'⟩ :=
      inductionHypothesis (inside.withCells (st.cells.modify i fun _ => content)) rfl
    exact ⟨n + 1, st', .ask inside.stands.going rfl steps, there, inside'⟩
  | @update m m' p i change next rest inductionHypothesis =>
    subst here
    obtain ⟨n, st', steps, there, inside'⟩ :=
      inductionHypothesis (inside.withCells (st.cells.modify i change)) rfl
    exact ⟨n + 1, st', .ask inside.stands.going rfl steps, there, inside'⟩
  | @newFrame m m' p label body next rest inductionHypothesis =>
    subst here
    obtain ⟨n, st', steps, there, inside'⟩ :=
      inductionHypothesis (inside.withFrame label body) (st.memory_withFrame label body)
    exact ⟨n + 1, st', .newFrame inside.stands.going steps, there, inside'⟩

/-! ## What evaluates, runs -/

omit [Inhabited V] in
theorem isSome_of_code {code : Frame.Code V (Body V C)} (here : st.memory = m)
    (found : m.code f = some code) : (st.frames.get? f).isSome = true := by
  subst here
  obtain ⟨frame, there, _⟩ := Option.map_eq_some_iff.1 found
  exact Option.isSome_iff_exists.2 ⟨frame, there⟩

end Config

theorem Eval.code [Inhabited V] {fits : List FrameId → FrameId → Prop} {t : TaskId} {below : List FrameId}
    {m m' : Memory V C} {now : Resume V} {trace : List (Resume V)} {result : Except (Error V) V}
    (eval : Eval fits t below m now trace m' result) : ∃ body, m.code now.frame = some (.host body) := by
  cases eval with
  | finish code | call code | become code => exact ⟨_, code⟩

namespace Config

variable [Inhabited V] {st : State V C} {t : TaskId} {f : FrameId} {below : List FrameId}
  {after : Focus V C} {stack : List (Activation V C)} {m m' : Memory V C} {now : Resume V}
  {trace : List (Resume V)} {result : Except (Error V) V}

/-- From where the frame is resumed, an evaluation is a run to where a frame finishes in its place. -/
theorem steps_eval (after : Focus V C) (stack : List (Activation V C))
    (eval : Eval (fun below next => next ∉ below) t below m now trace m' result)
    (due : st.Due t now below) (here : st.memory = m) :
    ∃ n st' f, (⟨st, .trampoline t after, stack⟩ : Config V C).Steps t n trace
        ⟨st', .code (.answer (.ofResult result)), .frame t f after :: stack⟩ ∧
      st'.memory = m' ∧ st'.Inside t f below := by
  induction eval generalizing st with
  | @finish below m m' now body result code reads =>
    subst here
    obtain ⟨st₁, resumes, memory, inside⟩ := steps_resume after stack due code
    obtain ⟨n, st₂, uses, memory', inside'⟩ := steps_reads reads inside memory
    exact ⟨1 + n, st₂, now.frame, resumes.trans uses, memory', inside'⟩
  | @call below m m₁ m₂ m₃ now body callee value inner outer middle result code reads apart called again
      callIH againIH =>
    subst here
    obtain ⟨st₁, resumes, memory, inside⟩ := steps_resume after stack due code
    obtain ⟨n, st₂, uses, memory₁, inside₁⟩ := steps_reads reads inside memory
    obtain ⟨_, there⟩ := called.code
    obtain ⟨st₃, calls, memory₂, due₁⟩ :=
      steps_call value after stack inside₁ (isSome_of_code memory₁ there) apart
    obtain ⟨k, st₄, g, runs, memory₃, inside₂⟩ := callIH due₁ (memory₂.trans memory₁)
    -- The callee, or what went on in its place, finished: its caller is resumed.
    obtain ⟨st₅, returns, memory₄, due₂⟩ := steps_return middle after stack inside₂
    obtain ⟨l, st₆, h, runs', memory₅, inside₃⟩ := againIH due₂ (memory₄.trans memory₃)
    have whole := resumes.trans (uses.trans (calls.trans (runs.trans (returns.trans runs'))))
    exact ⟨_, st₆, h, whole, memory₅, inside₃⟩
  | @become below m m₁ m₂ now body next value trace result code reads goes rest inductionHypothesis =>
    subst here
    obtain ⟨st₁, resumes, memory, inside⟩ := steps_resume after stack due code
    obtain ⟨n, st₂, uses, memory₁, inside₁⟩ := steps_reads reads inside memory
    obtain ⟨_, there⟩ := rest.code
    obtain ⟨st₃, becomes, memory₂, due₁⟩ :=
      steps_become value after stack inside₁ (isSome_of_code memory₁ there) goes
    obtain ⟨k, st₄, g, runs, memory₃, inside₂⟩ := inductionHypothesis due₁ (memory₂.trans memory₁)
    have whole := resumes.trans (uses.trans (becomes.trans runs))
    exact ⟨_, st₄, g, whole, memory₃, inside₂⟩

/-! ## What runs, evaluates -/

theorem Steps.served {n : Nat} {c' : Config V C} {request : Request V C} {next : request.Reply → Program V C}
    (steps : (⟨st, .code (.ask request next), stack⟩ : Config V C).Steps t n trace c')
    (ends : c'.state.isOver t = true) (going : st.isOver t = false) :
    ∃ reply st', st.serve request = .ok (reply, st') := by
  obtain ⟨c₁, step⟩ := steps.next ends going
  simp only [Config.step, stepCode, bind_ok] at step
  obtain ⟨⟨reply, st'⟩, served, _⟩ := step
  exact ⟨reply, st', served⟩

/-- Code in direct style gets to where it ends, if the task comes to its end. -/
theorem reads_of_steps {among : FrameId → Prop} {context : Context} {p : Program V C} {c' : Config V C}
    {n : Nat} (direct : p.Direct among context) (inside : st.Inside t f below)
    (all : st.memory.Direct among) (ends : c'.state.isOver t = true)
    (steps : (⟨st, .code p, stack⟩ : Config V C).Steps t n trace c') :
    ∃ k st' p', st.memory.Reads p st'.memory p' ∧ p'.Leaves among context ∧ k ≤ n ∧
      (⟨st', .code p', stack⟩ : Config V C).Steps t k trace c' ∧ st'.Inside t f below ∧
      st'.memory.Direct among := by
  induction direct generalizing st n with
  | leave leaves => exact ⟨n, st, _, .here, leaves, le_rfl, steps, inside, all⟩
  | @newCell context content next rest inductionHypothesis =>
    obtain ⟨m, later, rfl, rfl, steps⟩ := steps.split ends (.ask inside.stands.going rfl .none)
    obtain ⟨k, st', p', reads, leaves, shorter, steps, inside', all'⟩ :=
      inductionHypothesis _ (inside.withCells _) (all.withCells (st.cells.add content)) steps
    exact ⟨k, st', p', .newCell reads, leaves, by omega, steps, inside', all'⟩
  | @read context i next rest inductionHypothesis =>
    obtain ⟨reply, st₁, served⟩ := steps.served ends inside.stands.going
    have replied := served
    simp only [State.serve, bind_ok, pure_ok, Prod.mk.injEq] at replied
    obtain ⟨content, found, rfl, rfl⟩ := replied
    obtain ⟨m, later, rfl, rfl, steps⟩ := steps.split ends (.ask inside.stands.going served .none)
    obtain ⟨k, st', p', reads, leaves, shorter, steps, inside', all'⟩ :=
      inductionHypothesis _ inside all steps
    exact ⟨k, st', p', .read (State.find_ok.1 found) reads, leaves, by omega, steps, inside', all'⟩
  | @write context i content next rest inductionHypothesis =>
    obtain ⟨m, later, rfl, rfl, steps⟩ := steps.split ends (.ask inside.stands.going rfl .none)
    obtain ⟨k, st', p', reads, leaves, shorter, steps, inside', all'⟩ :=
      inductionHypothesis (inside.withCells _) (all.withCells (st.cells.modify i fun _ => content)) steps
    exact ⟨k, st', p', .write reads, leaves, by omega, steps, inside', all'⟩
  | @update context i change next rest inductionHypothesis =>
    obtain ⟨m, later, rfl, rfl, steps⟩ := steps.split ends (.ask inside.stands.going rfl .none)
    obtain ⟨k, st', p', reads, leaves, shorter, steps, inside', all'⟩ :=
      inductionHypothesis (inside.withCells _) (all.withCells (st.cells.modify i change)) steps
    exact ⟨k, st', p', .update reads, leaves, by omega, steps, inside', all'⟩
  | @newFrame context label body next code rest _ inductionHypothesis =>
    obtain ⟨m, later, rfl, rfl, steps⟩ := steps.split ends (.newFrame inside.stands.going .none)
    have all₁ : (st.withFrame label body).memory.Direct among := by
      rw [State.memory_withFrame]
      exact all.addFrame code
    obtain ⟨k, st', p', reads, leaves, shorter, steps, inside', all'⟩ :=
      inductionHypothesis _ (all.fresh (by simp [State.memory])) (inside.withFrame label body) all₁ steps
    rw [State.memory_withFrame] at reads
    exact ⟨k, st', p', .newFrame reads, leaves, by omega, steps, inside', all'⟩

/-- A frame that is put on top of a chain is not part of it. -/
theorem Steps.apart {n : Nat} {c' : Config V C} {g : FrameId} {base : List FrameId}
    {caller : Option FrameId} {next : Unit → Program V C}
    (steps : (⟨st, .code (.ask (.attach g caller) next), stack⟩ : Config V C).Steps t n trace c')
    (ends : c'.state.isOver t = true) (inside : st.Inside t f below) (linked : st.Linked base)
    (top : base.head? = caller) : (st.frames.get? g).isSome = true ∧ g ∉ base := by
  subst top
  obtain ⟨reply, st', served⟩ := steps.served ends inside.stands.going
  simp only [State.serve, bind_ok] at served
  obtain ⟨st₁, attached, _⟩ := served
  obtain ⟨known, off, _⟩ := State.attach_ok attached
  refine ⟨known, fun member => ?_⟩
  have on := (State.isOnChain_linked inside.stands.acyclic linked known).2 member
  simp [off] at on

theorem Steps.resumed {n : Nat} {c' : Config V C} {value : V} {error : Option (Error V)}
    (steps : (⟨st, .trampoline t after, stack⟩ : Config V C).Steps t n trace c')
    (ends : c'.state.isOver t = true) (stands : st.Stands t (some f) value error) :
    ∃ frame, st.frames.get? f = some frame := by
  obtain ⟨c₁, step⟩ := steps.next ends stands.going
  obtain ⟨task, found, poised⟩ := stands.task
  simp only [Config.step, resumeTop, bind_ok, State.task_ok] at step
  obtain ⟨task', found', step⟩ := step
  obtain rfl := Option.some.inj (found.symm.trans found')
  rw [poised.top] at step
  simp only [mapState, resumeFrame, State.resume, bind_ok, State.frame_ok] at step
  obtain ⟨_, ⟨frame, there, _⟩, _⟩ := step
  exact ⟨frame, there⟩

/-- From where a frame is resumed, a run to the end of the task is an evaluation, and then goes on where
a frame finishes in its place. -/
theorem eval_of_steps {among : FrameId → Prop} {c' : Config V C} {n : Nat} (due : st.Due t now below)
    (all : st.memory.Direct among) (fit : among now.frame) (ends : c'.state.isOver t = true)
    (steps : (⟨st, .trampoline t after, stack⟩ : Config V C).Steps t n trace c') :
    ∃ k st' f inner outer result,
      Eval (fun below next => next ∉ below) t below st.memory now inner st'.memory result ∧
      trace = inner ++ outer ∧ k < n ∧
      (⟨st', .code (.answer (.ofResult result)), .frame t f after :: stack⟩ : Config V C).Steps t k outer c' ∧
      st'.Inside t f below ∧ st'.memory.Direct among := by
  -- The callee and the caller after it both evaluate in fewer steps.
  induction n using Nat.strong_induction_on generalizing st now below trace with
  | _ n inductionHypothesis =>
  obtain ⟨frame, there⟩ := steps.resumed ends due.stands
  have code : st.memory.code now.frame = some frame.code := by simp [State.memory, there]
  obtain ⟨body, host, direct⟩ := all.code fit code
  rw [host] at code
  obtain ⟨st₁, resumes, memory, inside⟩ := steps_resume after stack due code
  obtain ⟨m, later, rfl, rfl, rest⟩ := steps.split ends resumes
  obtain ⟨k, st₂, p', reads, leaves, shorter, uses, inside₁, all₁⟩ :=
    reads_of_steps (direct _ _ _) inside (memory.symm ▸ all) ends rest
  rw [memory] at reads
  cases leaves with
  | finish result =>
    exact ⟨k, st₂, now.frame, [now], later, result, .finish code reads, rfl, by omega, uses, inside₁, all₁⟩
  | @call callee value fit' =>
    obtain ⟨known', apart⟩ := uses.apart ends inside₁ inside₁.linked rfl
    obtain ⟨st₃, calls, memory₁, due₁⟩ := steps_call value after stack inside₁ known' apart
    obtain ⟨m', later', rfl, rfl, rest₁⟩ := uses.split ends calls
    obtain ⟨k₁, st₄, g, inner, outer, middle, called, rfl, shorter₁, rest₂, inside₂, all₂⟩ :=
      inductionHypothesis m' (by omega) due₁ (memory₁.symm ▸ all₁) fit' rest₁
    obtain ⟨st₅, returns, memory₂, due₂⟩ := steps_return middle after stack inside₂
    obtain ⟨m'', later'', rfl, rfl, rest₃⟩ := rest₂.split ends returns
    obtain ⟨k₂, st₆, h, inner', outer', result, again, rfl, shorter₂, rest₄, inside₃, all₃⟩ :=
      inductionHypothesis m'' (by omega) due₂ (memory₂.symm ▸ all₂) (by simpa using fit) rest₃
    rw [memory₁] at called
    rw [memory₂] at again
    refine ⟨k₂, st₆, h, now :: inner ++ inner', outer', result, .call code reads apart called again, ?_,
      by omega, rest₄, inside₃, all₃⟩
    simp
  | @become next value fit' =>
    obtain ⟨view, looks, link⟩ := serve_frame inside₁
    obtain ⟨m', later', rfl, rfl, attaches⟩ := uses.split ends (.ask inside₁.stands.going looks .none)
    obtain ⟨known', apart⟩ := attaches.apart ends inside₁ inside₁.linked.2 link
    obtain ⟨st₃, becomes, memory₁, due₁⟩ := steps_become value after stack inside₁ known' apart
    obtain ⟨m'', later'', _, rfl, rest₁⟩ := uses.split ends becomes
    obtain ⟨k₁, st₄, g, inner, outer, result, evaluates, rfl, shorter₁, rest₂, inside₂, all₂⟩ :=
      inductionHypothesis m'' (by omega) due₁ (memory₁.symm ▸ all₁) fit' rest₁
    rw [memory₁] at evaluates
    refine ⟨k₁, st₄, g, now :: inner, outer, result, .become code reads apart evaluates, ?_, by omega, rest₂,
      inside₂, all₂⟩
    simp

/-! ## The whole run -/

/-- The run of a task does what evaluating its entry frame does: it resumes the same frames with the same
values and errors in the same order, and the task ends with the result of the evaluation.  A frame may go
on in any frame but those that wait for its result. -/
theorem run_evaluates {c : Config V C} {entry : FrameId} (focus : c.focus = .trampoline t after)
    (due : c.state.Due t ⟨entry, default, none⟩ []) :
    (∀ {trace m' result},
      Eval (fun below next => next ∉ below) t [] c.state.memory ⟨entry, default, none⟩ trace m' result →
      ∃ c', c.Runs t trace c' ∧ c'.focus = after ∧ c'.stack = c.stack ∧ c'.state.Closed t result) ∧
    ∀ {among trace c'}, c.state.memory.Direct among → among entry → c.Runs t trace c' →
      ∃ m' result,
        Eval (fun below next => next ∉ below) t [] c.state.memory ⟨entry, default, none⟩ trace m' result ∧
        c'.focus = after ∧ c'.stack = c.stack ∧ c'.state.Closed t result := by
  obtain ⟨st, focus', stack⟩ := c
  obtain rfl : focus' = .trampoline t after := focus
  constructor
  · intro trace m' result eval
    obtain ⟨n, st₁, f, steps, _, inside⟩ := steps_eval after stack eval due rfl
    obtain ⟨st', finishes, closed⟩ := steps_finish result after stack inside
    have whole := steps.trans finishes
    rw [List.append_nil] at whole
    exact ⟨_, ⟨n + 1, whole, closed.isOver⟩, rfl, rfl, closed⟩
  · intro among trace c' all fit run
    obtain ⟨n, steps, ends⟩ := run
    obtain ⟨k, st₁, f, inner, outer, result, eval, rfl, _, rest, inside, _⟩ := eval_of_steps due all fit ends steps
    obtain ⟨st', finishes, closed⟩ := steps_finish result after stack inside
    obtain ⟨m, later, _, rfl, beyond⟩ := rest.split ends finishes
    obtain ⟨rfl, rfl⟩ := beyond.of_over closed.isOver
    rw [List.append_nil]
    exact ⟨st₁.memory, result, eval, rfl, rfl, closed⟩

theorem steps_after {c : Config V C} {n : Nat} (ok : ∀ i < n, (c.after i).step.isOk = true)
    (going : ∀ i < n, (c.after i).state.isOver t = false) : ∃ trace, c.Steps t n trace (c.after n) := by
  induction n with
  | zero => exact ⟨[], .none⟩
  | succ n inductionHypothesis =>
    obtain ⟨trace, steps⟩ := inductionHypothesis (fun i bound => ok i (by omega)) fun i bound => going i (by omega)
    exact ⟨_, steps.trans (.step (going n (by omega)) (step_after (ok n (by omega))) .none)⟩

end Config

/-! ## Where runs begin -/

namespace Crew

variable [Inhabited V]

/-- In every run of proper programs, the run of a task that was spawned begins as an evaluation does. -/
theorem Run.due (run : Run V C Proper) {i : Nat} (bound : i ≤ run.length) {c : Crew V C}
    (here : run.crew i = c) {t : TaskId} {task : Task V} {entry : FrameId} {after : Focus V C}
    {stack : List (Activation V C)} (member : ⟨.trampoline t after, stack⟩ ∈ c.agents)
    (found : c.state.tasks.get? t = some task) (top : task.top = some entry)
    (value : task.value = default) (error : task.error = none) (root : c.state.caller entry = none) :
    c.state.Due t ⟨entry, default, none⟩ [] := by
  have orderly : c.Orderly := here ▸ run.orderly i bound
  have sound : c.Sound := here ▸ (run.mono fun _ _ proper => proper.1).sound i bound
  have runs : (t, Stage.next) ∈ Agent.runs (⟨.trampoline t after, stack⟩ : Agent V C) := by
    simp [Agent.runs, Focus.run?]
  have live : task.life = .running := by
    have life := sound.running (mem_runs member runs)
    simpa [State.life, found] using life
  -- Only the code of a frame arranges to wait.
  have calm : task.arranged = false := by
    rw [← Bool.not_eq_true]
    intro arranged
    obtain ⟨_, program, focus, _⟩ := orderly.calm member runs found arranged
    cases focus
  have listed : task.listed = true := by
    rw [orderly.listed found, live]
    rfl
  refine ⟨⟨orderly.balanced, sound.warded.acyclic, task, found, ?_⟩, root, trivial⟩
  exact ⟨live, calm, listed, top, value, error⟩

/-! ### A frame that calls another one -/

/-- The first time it is resumed, the frame calls a frame with the code, and when it is resumed again it
finishes. -/
def errandBody (code : FrameId → Body Unit Bool) (called : CellId) : Body Unit Bool := fun context _ _ =>
  .ask (.read called) fun
    | true => .answer (.done ())
    | false => .ask (.write called true) fun _ =>
      .newFrame "callee" (code context.frame) fun callee => .call context callee ()

def errand (code : FrameId → Body Unit Bool) : Program Unit Bool :=
  .ask (.newCell false) fun called =>
  .newFrame "errand" (errandBody code called) fun entry =>
  .ask .newRegistry fun g =>
  .ask (.newScheduler .manual g) fun
    | .error _ => .answer .suspended
    | .ok s => .ask (.spawn s entry) fun
      | .error _ => .answer .suspended
      | .ok t => .ask (.start t) fun _ => .drive s fun _ => .answer (.done ())

/-- The host after so many steps. -/
def errandHost (code : FrameId → Body Unit Bool) (n : Nat) : Config Unit Bool :=
  (Config.start (.initial 1) (errand code)).after n

theorem errand_ok (code : FrameId → Body Unit Bool) : ∀ n < 8, (errandHost code n).step.isOk = true := by
  intro n bound
  interval_cases n <;> rfl

theorem errand_proper (code : FrameId → Body Unit Bool) :
    ∀ n < 8, Proper (errandHost code n).alone (errandHost code n).agent := by
  intro n bound
  interval_cases n
  case «4» =>
    refine ⟨?_, trivial⟩
    show ∀ f, Reaches (errandHost code 4).state.caller ⟨1⟩ f → (errandHost code 4).alone.picture.Idle f
    intro f way
    obtain rfl : ⟨1⟩ = f := way.cases_caller.resolve_right nofun
    refine ⟨rfl, ?_, nofun⟩
    rintro ⟨_ | n⟩ (⟨b, base, _⟩ | inside)
    · cases base
    · cases inside
    · cases base
    · cases inside
  all_goals exact ⟨trivial, trivial⟩

/-- The state in which the run of the task begins. -/
def errandState (code : FrameId → Body Unit Bool) : State Unit Bool :=
  { State.initial 1 with
      tasks := Table.empty.add
        { Task.new ⟨1⟩ ⟨1⟩ none with life := .running, worker := some .embedded, listed := true }
      frames := Table.empty.add ⟨"errand", none, .host (errandBody code ⟨1⟩)⟩
      schedulers := Table.empty.add { Scheduler.new .manual ⟨1⟩ 0 with tasks := 1, runnable := 1 }
      registries := Table.empty.add .new
      cells := Table.empty.add false }

/-- The host when the run of the task begins. -/
def errandStart (code : FrameId → Body Unit Bool) : Config Unit Bool :=
  ⟨errandState code, .trampoline ⟨1⟩ (.drain ⟨1⟩ 1 fun _ => .answer (.done ())), []⟩

/-- The host when it has spawned the task. -/
def errandSpawned (code : FrameId → Body Unit Bool) : Config Unit Bool where
  state :=
    { State.initial 1 with
      tasks := Table.empty.add { Task.new ⟨1⟩ ⟨1⟩ none with listed := true }
      frames := Table.empty.add ⟨"errand", none, .host (errandBody code ⟨1⟩)⟩
      schedulers := Table.empty.add { Scheduler.new .manual ⟨1⟩ 0 with tasks := 1 }
      registries := Table.empty.add .new
      cells := Table.empty.add false }
  focus := .code (.ask (.start ⟨1⟩) fun _ => .drive ⟨1⟩ fun _ => .answer (.done ()))
  stack := []

theorem errandHost_eq (code : FrameId → Body Unit Bool) : errandHost code 8 = errandStart code := by
  have spawned : errandHost code 5 = errandSpawned code := rfl
  have begins : (errandSpawned code).after 3 = errandStart code := by cbv
  calc errandHost code 8 = (errandHost code 5).after 3 := Config.after_add _ 5 3
    _ = errandStart code := by rw [spawned, begins]

def errandRun (code : FrameId → Body Unit Bool) : Run Unit Bool Proper :=
  .ofHost 1 (errand code) 8 (errand_ok code) (errand_proper code)

theorem errand_due (code : FrameId → Body Unit Bool) : (errandStart code).state.Due ⟨1⟩ ⟨⟨1⟩, (), none⟩ [] := by
  apply (errandRun code).due (show 9 ≤ 9 from le_rfl) (congrArg Config.alone (errandHost_eq code))
  · exact List.mem_singleton.2 rfl
  all_goals rfl

theorem errand_direct {code : FrameId → Body Unit Bool}
    (direct : ∀ f context value error, Program.Direct (fun _ => True) context (code f context value error)) :
    (errandStart code).state.memory.Direct fun _ => True where
  fresh _ := trivial
  code {f body} _ found := by
    obtain ⟨_ | _ | n⟩ := f
    · cases found
    · obtain rfl := Option.some.inj found
      refine ⟨_, rfl, fun context _ _ => .read fun called => ?_⟩
      cases called with
      | true => exact .leave (.finish (.ok ()))
      | false => exact .write (.newFrame (direct context.frame) fun f _ => .leave (.call () trivial))
    · cases found

section

variable {code : FrameId → Body Unit Bool} {fits : List FrameId → FrameId → Prop} {below : List FrameId}
  {m : Memory Unit Bool} {inner : List (Resume Unit)}

/-- What evaluation works on when the callee is called. -/
def errandCalled (code : FrameId → Body Unit Bool) : Memory Unit Bool :=
  ((errandStart code).state.memory.withCells (Table.empty.add true)).addFrame (code ⟨1⟩)

theorem errand_again (known : m.code ⟨1⟩ = some (.host (errandBody code ⟨1⟩)))
    (called : m.cells.get? ⟨1⟩ = some true) :
    Eval fits ⟨1⟩ below m ⟨⟨1⟩, (), none⟩ [⟨⟨1⟩, (), none⟩] m (.ok ()) := by
  have reads : m.Reads (errandBody code ⟨1⟩ ⟨⟨1⟩, ⟨1⟩⟩ () none) m (.answer (.ofResult (.ok ()))) :=
    .read called .here
  exact .finish known reads

theorem errand_calls (eval : Eval fits ⟨1⟩ [⟨1⟩] (errandCalled code) ⟨⟨2⟩, (), none⟩ inner m (.ok ()))
    (known : m.code ⟨1⟩ = some (.host (errandBody code ⟨1⟩))) (called : m.cells.get? ⟨1⟩ = some true) :
    Eval fits ⟨1⟩ [] (errandStart code).state.memory ⟨⟨1⟩, (), none⟩
      (⟨⟨1⟩, (), none⟩ :: inner ++ [⟨⟨1⟩, (), none⟩]) m (.ok ()) := by
  have reads : (errandStart code).state.memory.Reads (errandBody code ⟨1⟩ ⟨⟨1⟩, ⟨1⟩⟩ () none)
      (errandCalled code) (.call ⟨⟨1⟩, ⟨1⟩⟩ ⟨2⟩ ()) := .read rfl (.write (.newFrame .here))
  exact .call rfl reads (by decide) eval (errand_again known called)

end

/-- A callee that finishes at once. -/
def prompt : FrameId → Body Unit Bool := fun _ _ _ _ => .answer (.done ())

theorem errand_evaluates : ∃ c' m',
    (errandStart prompt).Runs ⟨1⟩ [⟨⟨1⟩, (), none⟩, ⟨⟨2⟩, (), none⟩, ⟨⟨1⟩, (), none⟩] c' ∧
    c'.state.Closed ⟨1⟩ (.ok ()) ∧
    Eval (fun below next => next ∉ below) ⟨1⟩ [] (errandStart prompt).state.memory ⟨⟨1⟩, (), none⟩
      [⟨⟨1⟩, (), none⟩, ⟨⟨2⟩, (), none⟩, ⟨⟨1⟩, (), none⟩] m' (.ok ()) := by
  have focus : (errandStart prompt).focus = .trampoline ⟨1⟩ _ := rfl
  obtain ⟨runs, evaluates⟩ := Config.run_evaluates focus (errand_due prompt)
  have called : Eval (fun below next => next ∉ below) ⟨1⟩ [⟨1⟩] (errandCalled prompt) ⟨⟨2⟩, (), none⟩
      [⟨⟨2⟩, (), none⟩] (errandCalled prompt) (.ok ()) := .finish rfl .here
  obtain ⟨c', run, _, _, closed⟩ := runs (errand_calls called rfl rfl)
  have direct : (errandStart prompt).state.memory.Direct fun _ => True :=
    errand_direct fun _ _ _ _ => .leave (.finish (.ok ()))
  obtain ⟨m', result, eval, _, _, closed'⟩ := evaluates direct trivial run
  obtain rfl := closed'.unique closed
  exact ⟨c', m', run, closed, eval⟩

/-! ### A frame that goes on in its caller -/

/-- A callee that goes on in its caller. -/
def relapse (f : FrameId) : Body Unit Bool := fun context _ _ => .become context f ()

theorem relapse_ok : ∀ n < 9, ((errandStart relapse).after n).step.isOk = true := by decide +kernel

theorem relapse_going : ∀ n < 10, ((errandStart relapse).after n).state.isOver ⟨1⟩ = false := by
  decide +kernel

theorem relapse_refused : ((errandStart relapse).after 9).step.isOk = false := by decide +kernel

/-- The frame of the task evaluates if frames may go on in any frame, but its run never ends. -/
theorem relapse_stuck :
    (errandStart relapse).state.Due ⟨1⟩ ⟨⟨1⟩, (), none⟩ [] ∧
    (errandStart relapse).state.memory.Direct (fun _ => True) ∧
    (∃ trace m', Eval (fun _ _ => True) ⟨1⟩ [] (errandStart relapse).state.memory ⟨⟨1⟩, (), none⟩ trace m'
      (.ok ())) ∧
    ¬ ∃ trace c', (errandStart relapse).Runs ⟨1⟩ trace c' := by
  refine ⟨errand_due relapse, errand_direct fun f context _ _ => .leave (.become () trivial), ?_, ?_⟩
  · have called : Eval (fun _ _ => True) ⟨1⟩ [⟨1⟩] (errandCalled relapse) ⟨⟨2⟩, (), none⟩
        [⟨⟨2⟩, (), none⟩, ⟨⟨1⟩, (), none⟩] (errandCalled relapse) (.ok ()) :=
      .become rfl .here trivial (errand_again rfl rfl)
    exact ⟨_, _, errand_calls called rfl rfl⟩
  · rintro ⟨trace, c', n, steps, ends⟩
    obtain ⟨trace', first⟩ := Config.steps_after relapse_ok fun n bound => relapse_going n (by omega)
    obtain ⟨k, later, _, _, rest⟩ := steps.split ends first
    obtain ⟨c₁, step⟩ := rest.next ends (relapse_going 9 (by omega))
    have refused := relapse_refused
    simp [step, Except.isOk, Except.toBool] at refused

end Crew

end Tasking
