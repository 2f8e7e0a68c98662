import Tasking.Proofs.Deeds

/-! # Calls in direct style

Frames whose code finishes, throws, calls another frame or goes on in one can be read as procedures:
calling one means to evaluate it, and then to evaluate the caller again with what came of it.  `Eval` says
what a frame comes to when it is read like this, and which frames are resumed on the way, and with what.

Frames keep what they remember from one resume to the next in memory cells, and may make new frames.
That is all that evaluation knows of the runtime (`Memory`): it has no chains, no registers and no tasks.
-/

namespace Tasking

variable {V C : Type}

/-- What evaluation works on: the memory cells, the code of frames, and the number that the next frame
will get. -/
structure Memory (V C : Type) where
  cells : Table .cell C
  code : FrameId → Option (Frame.Code V (Body V C))
  fresh : FrameId

/-- What evaluation knows of a state. -/
def State.memory (st : State V C) : Memory V C where
  cells := st.cells
  code f := (st.frames.get? f).map Frame.code
  fresh := st.frames.next

namespace Memory

/-- The memory with other cells. -/
def withCells (m : Memory V C) (cells : Table .cell C) : Memory V C := { m with cells := cells }

/-- The memory with another frame. -/
def addFrame (m : Memory V C) (body : Body V C) : Memory V C where
  cells := m.cells
  code := Function.update m.code m.fresh (some (.host body))
  fresh := ⟨m.fresh.number + 1⟩

/-- What code does before it answers or calls: it uses cells and makes frames. -/
inductive Reads : Memory V C → Program V C → Memory V C → Program V C → Prop where
  | here {m : Memory V C} {p : Program V C} : Reads m p m p
  | newCell {m m' : Memory V C} {p : Program V C} {content : C} {next : CellId → Program V C}
      (rest : Reads (m.withCells (m.cells.add content)) (next m.cells.next) m' p) :
      Reads m (.ask (.newCell content) next) m' p
  | read {m m' : Memory V C} {p : Program V C} {i : CellId} {content : C} {next : C → Program V C}
      (found : m.cells.get? i = some content) (rest : Reads m (next content) m' p) :
      Reads m (.ask (.read i) next) m' p
  | write {m m' : Memory V C} {p : Program V C} {i : CellId} {content : C} {next : Unit → Program V C}
      (rest : Reads (m.withCells (m.cells.modify i fun _ => content)) (next ()) m' p) :
      Reads m (.ask (.write i content) next) m' p
  | update {m m' : Memory V C} {p : Program V C} {i : CellId} {f : C → C} {next : Unit → Program V C}
      (rest : Reads (m.withCells (m.cells.modify i f)) (next ()) m' p) :
      Reads m (.ask (.update i f) next) m' p
  | newFrame {m m' : Memory V C} {p : Program V C} {label : String} {body : Body V C}
      {next : FrameId → Program V C} (rest : Reads (m.addFrame body) (next m.fresh) m' p) :
      Reads m (.newFrame label body next) m' p

end Memory

/-- The answer of a frame that finishes with a result. -/
def Answer.ofResult : Except (Error V) V → Answer V
  | .ok value => .done value
  | .error error => .throw error

/-- Call a frame and go on with what comes of it. -/
def Program.call (context : Context) (callee : FrameId) (value : V) : Program V C :=
  (Code.call context callee value : Code V C (Answer V)).program

/-- Go on in another frame. -/
def Program.become (context : Context) (next : FrameId) (value : V) : Program V C :=
  (do Code.continueIn context next; Code.answer (.jump next value) : Code V C (Answer V)).program

/-- A frame that is resumed, and with what. -/
structure Resume (V : Type) where
  frame : FrameId
  value : V
  error : Option (Error V)

/-- What a frame is resumed with after one that it called finished. -/
def Resume.after [Inhabited V] (f : FrameId) : Except (Error V) V → Resume V
  | .ok value => ⟨f, value, none⟩
  | .error error => ⟨f, default, some error⟩

@[simp] theorem Resume.frame_after [Inhabited V] (f : FrameId) (result : Except (Error V) V) :
    (Resume.after f result).frame = f := by
  cases result <;> rfl

/-- What a frame comes to when it is resumed, as frames of a task, with a list of what is resumed
meanwhile.  `below` are the frames that wait for its result, the nearest first.  A frame may call only
frames that do not run and do not wait; `fits` tells in which frames it may go on. -/
inductive Eval [Inhabited V] (fits : List FrameId → FrameId → Prop) (t : TaskId) :
    List FrameId → Memory V C → Resume V → List (Resume V) → Memory V C → Except (Error V) V → Prop where
  | finish {below : List FrameId} {m m' : Memory V C} {now : Resume V} {body : Body V C}
      {result : Except (Error V) V} (code : m.code now.frame = some (.host body))
      (reads : m.Reads (body ⟨t, now.frame⟩ now.value now.error) m' (.answer (.ofResult result))) :
      Eval fits t below m now [now] m' result
  | call {below : List FrameId} {m m₁ m₂ m₃ : Memory V C} {now : Resume V} {body : Body V C}
      {callee : FrameId} {value : V} {inner outer : List (Resume V)} {middle result : Except (Error V) V}
      (code : m.code now.frame = some (.host body))
      (reads : m.Reads (body ⟨t, now.frame⟩ now.value now.error) m₁ (.call ⟨t, now.frame⟩ callee value))
      (apart : callee ∉ now.frame :: below)
      (called : Eval fits t (now.frame :: below) m₁ ⟨callee, value, none⟩ inner m₂ middle)
      (again : Eval fits t below m₂ (.after now.frame middle) outer m₃ result) :
      Eval fits t below m now (now :: inner ++ outer) m₃ result
  | become {below : List FrameId} {m m₁ m₂ : Memory V C} {now : Resume V} {body : Body V C}
      {next : FrameId} {value : V} {trace : List (Resume V)} {result : Except (Error V) V}
      (code : m.code now.frame = some (.host body))
      (reads : m.Reads (body ⟨t, now.frame⟩ now.value now.error) m₁ (.become ⟨t, now.frame⟩ next value))
      (goes : fits below next) (rest : Eval fits t below m₁ ⟨next, value, none⟩ trace m₂ result) :
      Eval fits t below m now (now :: trace) m₂ result

/-- How code in direct style may end: it finishes, throws, or calls or goes on in one of these frames. -/
inductive Program.Leaves (among : FrameId → Prop) (context : Context) : Program V C → Prop where
  | finish (result : Except (Error V) V) : Leaves among context (.answer (.ofResult result))
  | call {callee : FrameId} (value : V) (fit : among callee) : Leaves among context (.call context callee value)
  | become {next : FrameId} (value : V) (fit : among next) : Leaves among context (.become context next value)

/-- Code in direct style: before it ends it may use cells, and make frames in direct style. -/
inductive Program.Direct (among : FrameId → Prop) : Context → Program V C → Prop where
  | leave {context : Context} {p : Program V C} (leaves : p.Leaves among context) : Direct among context p
  | newCell {context : Context} {content : C} {next : CellId → Program V C}
      (rest : ∀ i, Direct among context (next i)) : Direct among context (.ask (.newCell content) next)
  | read {context : Context} {i : CellId} {next : C → Program V C}
      (rest : ∀ content, Direct among context (next content)) : Direct among context (.ask (.read i) next)
  | write {context : Context} {i : CellId} {content : C} {next : Unit → Program V C}
      (rest : Direct among context (next ())) : Direct among context (.ask (.write i content) next)
  | update {context : Context} {i : CellId} {f : C → C} {next : Unit → Program V C}
      (rest : Direct among context (next ())) : Direct among context (.ask (.update i f) next)
  | newFrame {context : Context} {label : String} {body : Body V C} {next : FrameId → Program V C}
      (code : ∀ context value error, Direct among context (body context value error))
      (rest : ∀ f, among f → Direct among context (next f)) :
      Direct among context (.newFrame label body next)

/-- These frames have code in direct style, and frames that are still to be made are among them. -/
structure Memory.Direct (m : Memory V C) (among : FrameId → Prop) : Prop where
  code : ∀ {f code}, among f → m.code f = some code → ∃ body, code = .host body ∧
    ∀ context value error, Program.Direct among context (body context value error)
  fresh : ∀ {f}, m.code f = none → among f

namespace Memory.Direct

variable {m : Memory V C} {among : FrameId → Prop}

theorem withCells (direct : m.Direct among) (cells : Table .cell C) : (m.withCells cells).Direct among :=
  ⟨direct.code, direct.fresh⟩

theorem addFrame (direct : m.Direct among) {body : Body V C}
    (code : ∀ context value error, Program.Direct among context (body context value error)) :
    (m.addFrame body).Direct among where
  code {f code'} fit found := by
    simp only [Memory.addFrame, Function.update_apply] at found
    split at found
    · exact ⟨body, (Option.some.inj found).symm, code⟩
    · exact direct.code fit found
  fresh {f} missing := by
    simp only [Memory.addFrame, Function.update_apply] at missing
    split at missing
    · simp at missing
    · exact direct.fresh missing

end Memory.Direct

/-! ## What a thread does -/

namespace Config

/-- What the next step of a thread resumes, if it resumes a frame.  An unwind resumes frames with the
error that tells them so. -/
def resume? [Inhabited V] (c : Config V C) : Option (Resume V) :=
  match c.focus with
  | .trampoline t _ => (c.state.tasks.get? t).bind fun task =>
      task.top.map fun f => ⟨f, task.value, task.error⟩
  | _ => (c.agent.resumed? c.state).map fun resumed => ⟨resumed.2, default, some .cancelled⟩

end Config

/-- Whether there is such a task, and it is at its end. -/
def State.isOver (st : State V C) (t : TaskId) : Bool := (st.tasks.get? t).any Task.isFinished

variable [Inhabited V]

/-- A thread makes so many steps while the task is not at its end, and resumes these frames. -/
inductive Config.Steps (t : TaskId) : Nat → Config V C → List (Resume V) → Config V C → Prop where
  | none {c : Config V C} : Steps t 0 c [] c
  | step {n : Nat} {c c₁ c' : Config V C} {trace : List (Resume V)} (going : c.state.isOver t = false)
      (step : c.step = .ok c₁) (rest : Steps t n c₁ trace c') :
      Steps t (n + 1) c (c.resume?.toList ++ trace) c'

/-- A thread goes on until the task is at its end, and resumes these frames. -/
def Config.Runs (t : TaskId) (c : Config V C) (trace : List (Resume V)) (c' : Config V C) : Prop :=
  ∃ n, c.Steps t n trace c' ∧ c'.state.isOver t = true

namespace Config.Steps

variable {t : TaskId} {n k : Nat} {c c₁ c' : Config V C} {trace trace₁ : List (Resume V)}

theorem trans (first : c.Steps t n trace c₁) (second : c₁.Steps t k trace₁ c') :
    c.Steps t (n + k) (trace ++ trace₁) c' := by
  induction first with
  | none => rwa [Nat.zero_add]
  | step going step _ inductionHypothesis =>
    rw [List.append_assoc, Nat.succ_add]
    exact .step going step (inductionHypothesis second)

/-- A step that resumes nothing. -/
theorem single (going : c.state.isOver t = false) (silent : c.resume? = .none) (step : c.step = .ok c₁) :
    c.Steps t 1 [] c₁ := by
  have steps : c.Steps t 1 (c.resume?.toList ++ []) c₁ := .step going step .none
  rwa [silent] at steps

/-- There is one way only to go on. -/
theorem split (long : c.Steps t n trace c') (ends : c'.state.isOver t = true)
    (short : c.Steps t k trace₁ c₁) :
    ∃ m rest, n = k + m ∧ trace = trace₁ ++ rest ∧ c₁.Steps t m rest c' := by
  induction short generalizing n trace with
  | none => exact ⟨n, trace, by omega, rfl, long⟩
  | step going step _ inductionHypothesis =>
    cases long with
    | none => simp [ends] at going
    | step _ step' rest' =>
      obtain rfl := Except.ok.inj (step.symm.trans step')
      obtain ⟨m, rest, rfl, rfl, later⟩ := inductionHypothesis rest'
      exact ⟨m, rest, by omega, by simp, later⟩

/-- As long as the task is not at its end, there is a next step. -/
theorem next (long : c.Steps t n trace c') (ends : c'.state.isOver t = true)
    (going : c.state.isOver t = false) : ∃ c₁, c.step = .ok c₁ := by
  cases long with
  | none => simp [ends] at going
  | step _ step _ => exact ⟨_, step⟩

/-- Nothing comes after the end of the task. -/
theorem of_over (steps : c.Steps t n trace c') (ends : c.state.isOver t = true) :
    trace = [] ∧ c' = c := by
  cases steps with
  | none => exact ⟨rfl, rfl⟩
  | step going => simp [ends] at going

end Config.Steps

end Tasking
