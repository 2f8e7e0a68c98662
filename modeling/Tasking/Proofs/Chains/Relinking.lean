import Tasking.Proofs.Apart.Frames
import Tasking.Proofs.Chains.Framing

/-! # Links, one at a time

A frame gets another caller by being attached only, and that is refused if the frame is met on the way from its
new caller to the root.  So no step puts a frame below itself, and a step that ends by a fault leaves every frame
with the caller that it had.

The walks along callers are bounded in the definitions.  `Walk` is a walk without a bound.  As long as no frame is
below itself and callers exist, every frame has its walk, and the bounded ones are that walk.
-/

namespace Tasking

variable {V C : Type}

/-- The frames from one down to its root, each followed by its caller. -/
inductive Walk (caller : FrameId → Option FrameId) : FrameId → List FrameId → Prop where
  | root {f : FrameId} (last : caller f = none) : Walk caller f [f]
  | down {f g : FrameId} {path : List FrameId} (link : caller f = some g) (rest : Walk caller g path) :
      Walk caller f (f :: path)

namespace Walk

variable {caller : FrameId → Option FrameId} {f g : FrameId} {path path' : List FrameId}

theorem unique (walk : Walk caller f path) (walk' : Walk caller f path') : path = path' := by
  induction walk generalizing path' with
  | root last =>
    cases walk' with
    | root => rfl
    | down link => simp [last] at link
  | down link _ inductionHypothesis =>
    cases walk' with
    | root last => simp [last] at link
    | down link' rest' =>
      obtain rfl := Option.some.inj (link.symm.trans link')
      rw [inductionHypothesis rest']

theorem mem_iff (walk : Walk caller f path) : g ∈ path ↔ Reaches caller f g := by
  induction walk with
  | root last =>
    rw [List.mem_singleton]
    refine ⟨fun same => same ▸ .refl, fun way => ?_⟩
    rcases way.cases_caller with same | ⟨p, link, _⟩
    · exact same.symm
    · simp [last] at link
  | @down f p path link _ inductionHypothesis =>
    rw [List.mem_cons, inductionHypothesis]
    constructor
    · rintro (rfl | way)
      · exact .refl
      · exact .head link way
    · intro way
      rcases way.cases_caller with same | ⟨p', link', rest⟩
      · exact .inl same.symm
      · exact .inr (Option.some.inj (link.symm.trans link') ▸ rest)

end Walk

/-- The way to a frame is there whatever that frame returns to. -/
theorem Reaches.updated {caller : FrameId → Option FrameId} {f g : FrameId} (way : Reaches caller g f)
    (c : Option FrameId) : Reaches (Function.update caller f c) g f := by
  induction way using Relation.ReflTransGen.head_induction_on with
  | refl => exact .refl
  | @head g h link _ inductionHypothesis =>
    by_cases same : g = f
    · exact same ▸ .refl
    · exact .head (by rwa [Function.update_of_ne same]) inductionHypothesis

/-- No frame gets below itself, exactly if the one that is attached is not met on the way from its new caller. -/
theorem Acyclic.update_iff {caller : FrameId → Option FrameId} {f : FrameId} {c : Option FrameId}
    (acyclic : Acyclic caller) :
    Acyclic (Function.update caller f c) ↔ ∀ k, c = some k → ¬ Reaches caller k f := by
  refine ⟨?_, acyclic.update⟩
  rintro still k rfl way
  exact still.not_caller_reaches (Function.update_self ..) (way.updated _)

namespace State

variable {st st' st'' : State V C} {t : TaskId} {f g : FrameId} {c : Option FrameId}

/-! ## Attaching -/

theorem isOnChain_iff_reaches (acyclic : Acyclic st.caller) (known : (st.frames.get? f).isSome = true) :
    st.isOnChain f c = true ↔ ∃ k, c = some k ∧ Reaches st.caller k f := by
  rw [isOnChain_iff]
  cases c with
  | none => simp [chainOf]
  | some k => simp [chainOf, mem_chain_iff acyclic known]

/-- An attach is refused or carried out. -/
theorem attach_eq (known : (st.frames.get? f).isSome = true) :
    st.attach f c = if st.isOnChain f c then .error ⟨.attachedBelowItself, st⟩ else
      .ok (st.modifyFrame f fun frame => { frame with caller := c }) := by
  obtain ⟨frame, found⟩ := Option.isSome_iff_exists.1 known
  have looks : st.frame f = .ok frame := frame_ok.2 found
  simp only [attach, looks]
  cases st.isOnChain f c <;> rfl

/-- An attach that would put a frame below itself is refused and changes nothing; any other one sets one link. -/
theorem attach_cases (acyclic : Acyclic st.caller) (known : (st.frames.get? f).isSome = true) (c : Option FrameId) :
    (¬ Acyclic (Function.update st.caller f c) → st.attach f c = .error ⟨.attachedBelowItself, st⟩) ∧
    (Acyclic (Function.update st.caller f c) →
      st.attach f c = .ok (st.modifyFrame f fun frame => { frame with caller := c })) := by
  have closes : st.isOnChain f c = true ↔ ¬ Acyclic (Function.update st.caller f c) := by
    rw [isOnChain_iff_reaches acyclic known, acyclic.update_iff]
    push Not
    rfl
  rw [attach_eq known]
  refine ⟨fun cycle => if_pos (closes.2 cycle), fun apart => if_neg fun met => closes.1 met apart⟩

/-! ## What a step does to links -/

/-- Every frame has the caller that it had, and none is gone. -/
structure Firm (st st' : State V C) : Prop where
  caller : st'.caller = st.caller
  known : ∀ {f}, (st.frames.get? f).isSome = true → (st'.frames.get? f).isSome = true

/-- No frame is gone, and no link changed but maybe one: a frame was attached to another that exists, and that put
no frame below itself. -/
inductive Relinks (st st' : State V C) : Prop where
  | keeps (firm : Firm st st')
  | attaches {f : FrameId} {c : Option FrameId} (here : (st'.frames.get? f).isSome = true)
      (exist : ∀ k, c = some k → (st'.frames.get? k).isSome = true)
      (apart : Acyclic st.caller → Acyclic (Function.update st.caller f c))
      (caller : st'.caller = Function.update st.caller f c)
      (known : ∀ {f}, (st.frames.get? f).isSome = true → (st'.frames.get? f).isSome = true)

namespace Firm

@[refl] theorem refl (st : State V C) : Firm st st := ⟨rfl, id⟩

theorem framed (firm : Firm st st') (framed : Framed st'.frames st'') : Firm st st'' where
  caller := (caller_of_frames framed).trans firm.caller
  known known := by
    rw [show st''.frames = st'.frames from framed]
    exact firm.known known

theorem setCode {code : Frame.Code V (Body V C)} (firm : Firm st st') : Firm st (st'.setCode f code) where
  caller := (caller_setCode f code).trans firm.caller
  known known := by
    rw [isSome_setCode]
    exact firm.known known

/-- A new frame returns nowhere. -/
theorem addFrame {frame : Frame V (Body V C)} (firm : Firm st st') (rootless : frame.caller = none) :
    Firm st (st'.addFrame frame).2 where
  caller := by
    rw [← firm.caller]
    funext g
    simp only [State.addFrame, State.caller, Table.get?_add_eq]
    split
    · next fresh => simp [fresh, rootless]
    · rfl
  known known := by
    simp only [State.addFrame, Table.get?_add_eq]
    split
    · rfl
    · exact firm.known known

/-- What changes no frame, whichever way it ends. -/
theorem gives {α : Type} {state : α → State V C} {x : Attempt V C α} (firm : Firm st st')
    (framed : Gives (fun a => Framed st'.frames (state a)) (Framed st'.frames) x) :
    Gives (fun a => Firm st (state a)) (Firm st) x :=
  framed.mono (fun _ => firm.framed) fun _ => firm.framed

end Firm

theorem Relinks.rooted (relinks : Relinks st st') (rooted : st.Rooted) : st'.Rooted := by
  cases relinks with
  | keeps firm =>
    exact ⟨firm.caller ▸ rooted.acyclic, fun link => firm.known (rooted.known (firm.caller ▸ link))⟩
  | @attaches f' c here exist apart caller known =>
    refine ⟨caller ▸ apart rooted.acyclic, fun {f g} link => ?_⟩
    rw [caller] at link
    by_cases same : f = f'
    · rw [same, Function.update_self] at link
      exact exist g link
    · rw [Function.update_of_ne same] at link
      exact known (rooted.known link)

theorem relinks_attach (firm : Firm st st') (exist : ∀ k, c = some k → (st'.frames.get? k).isSome = true) :
    Gives (fun st'' => Relinks st st'' ∧ st''.tasks = st'.tasks) (Firm st) (st'.attach f c) := by
  refine .find firm fun frame found => .check firm fun missed => .pure ⟨?_, rfl⟩
  have here : (st'.frames.get? f).isSome = true := by simp [found]
  have same (g : FrameId) := isSome_modifyFrame st' f g fun frame => { frame with caller := c }
  refine .attaches ((same f).trans here) (fun k next => (same k).trans (exist k next)) (fun acyclic => ?_) ?_
    fun {g} known => (same g).trans (firm.known known)
  · rw [← firm.caller] at acyclic ⊢
    refine acyclic.update fun k next way => missed ?_
    exact (isOnChain_iff_reaches acyclic here).2 ⟨k, next, way⟩
  · rw [caller_attach here, firm.caller]

theorem relinks_callFrame {callee : FrameId} {value : V} (firm : Firm st st')
    (here : (st'.frames.get? f).isSome = true) (runs : (st'.tasks.get? t).isSome = true) :
    Gives (fun called => Relinks st called.2) (Firm st) (st'.callFrame t f callee value) := by
  refine (relinks_attach firm fun k same => Option.some.inj same ▸ here).bind fun st₁ ⟨relinks, tasks⟩ => ?_
  obtain ⟨task, found⟩ := Option.isSome_iff_exists.1 runs
  have looks : st₁.task t = .ok task := task_ok.2 (tasks ▸ found)
  simp only [pause, looks]
  cases relinks with
  | keeps firm => exact .keeps ⟨firm.caller, firm.known⟩
  | attaches here exist apart caller known => exact .attaches here exist apart caller known

/-- A guard that calls its body links it, and nothing else that a guard does changes a link. -/
theorem relinks_resumeGuard {r : ResourceId} {phase : Phase V} {value : V} {error : Option (Error V)}
    (firm : Firm st st') (here : (st'.frames.get? f).isSome = true)
    (runs : error = none → (st'.tasks.get? t).isSome = true) :
    Gives (fun done => Relinks st done.2) (Firm st) (st'.resumeGuard t f r phase value error) := by
  have released : Firm st (st'.setCode f (.guard r .released)) := firm.setCode
  have stays (code : Frame.Code V (Body V C)) : ((st'.setCode f code).frames.get? f).isSome = true :=
    (isSome_setCode f f code).trans here
  cases phase with
  | start body =>
    simp only [resumeGuard]
    split
    · exact .pure (.keeps released)
    · refine (released.gives (Framed.acquire rfl)).traced.bind ?_
      rintro ⟨granted, st₁⟩ ⟨acquired, firm⟩
      dsimp only
      split
      · obtain ⟨_, known, ⟨_, _, rfl⟩ | ⟨_, ⟨_, impossible, _⟩ | ⟨impossible, _⟩⟩⟩ := acquire_ok acquired
        · exact relinks_callFrame firm.setCode ((isSome_setCode f f _).trans (stays _)) known
        · cases impossible
        · cases impossible
      · exact .pure (.keeps firm.setCode)
      · exact .pure (.keeps firm)
  | waiting body kept =>
    simp only [resumeGuard]
    refine .check released fun fine => .check released fun _ => ?_
    exact relinks_callFrame released.setCode ((isSome_setCode f f _).trans (stays _)) (runs (by simpa using fine))
  | held =>
    exact (released.gives (Framed.release rfl)).bind fun _ firm => .pure (.keeps firm)
  | released => exact .fail released

theorem firm_resumeJoin {child : TaskId} {parked : Bool} {error : Option (Error V)} (firm : Firm st st') :
    Gives (fun done => Firm st done.2) (Firm st) (st'.resumeJoin t f child parked error) := by
  unfold resumeJoin
  split
  · exact .pure firm
  · refine .ite (fun _ => .find firm fun awaited _ => ?_) fun _ => ?_
    · split
      · exact .pure firm
      · exact .fail firm
    · refine (firm.gives (Framed.waitFor rfl)).bind fun (reply, st₁) firm => ?_
      dsimp only
      split
      · exact .pure firm
      · exact .pure firm.setCode
      · exact .pure firm

theorem firm_resumeMessage {a : ActorId} {message value : V} {delivered : Bool} {error : Option (Error V)}
    (firm : Firm st st') :
    Gives (fun done => Firm st done.2) (Firm st) (st'.resumeMessage t f a message delivered value error) := by
  have marked : Firm st (st'.setCode f (.message a message true)) := firm.setCode
  refine .ite (fun _ => .pure firm) fun _ => ?_
  dsimp only
  split
  · exact .pure marked
  · refine .find marked fun actor _ => ?_
    have asks : Gives (fun _ => True) (Firm st) ((st'.setCode f (.message a message true)).mayOpen actor.state t) :=
      (Framed.mayOpen rfl).mono (fun _ => id) fun _ => marked.framed
    refine asks.bind fun may _ => .ite (fun _ => ?_) fun _ => ?_
    · exact .pure ⟨marked.caller, marked.known⟩
    · exact .fail marked

/-- Resuming a frame links the body of a guard at most. -/
theorem relinks_resume {value : V} {error : Option (Error V)} (firm : Firm st st')
    (runs : error = none → (st'.tasks.get? t).isSome = true) :
    Gives (fun done => Relinks st done.2) (Firm st) (st'.resume t f value error) := by
  refine .find firm fun frame found => ?_
  split
  · exact .pure (.keeps firm)
  · exact (relinks_resumeGuard firm (by simp [found]) runs).bind fun _ relinks => .pure relinks
  · exact (firm_resumeJoin firm).bind fun _ firm => .pure (.keeps firm)
  · exact (firm_resumeMessage firm).mono (fun _ => .keeps) fun _ => id

/-- A request links the frame that it attaches, and no request else changes a link. -/
theorem relinks_serve [Inhabited V] {request : Request V C}
    (exist : ∀ f k, request = .attach f (some k) → (st.frames.get? k).isSome = true) :
    Gives (fun done => Relinks st done.2) (Firm st) (st.serve request) := by
  cases request with
  | attach f c =>
    refine (relinks_attach (.refl st) fun k same => exist f k (by rw [same])).bind fun _ attached => ?_
    exact .pure attached.1
  | newGuard | newJoin => exact .pure (.keeps ((Firm.refl st).addFrame rfl))
  | newMessage a message =>
    refine .find (.refl st) fun actor _ => .find (.refl st) fun exclusive _ => ?_
    exact .pure (.keeps (((Firm.refl st).addFrame rfl).addFrame rfl))
  | _ => exact ((Firm.refl st).gives (Framed.serve rfl rfl)).mono (fun _ => .keeps) fun _ => id

end State

namespace Config

open State

variable {st : State V C} {c : Config V C} {after otherwise : Focus V C} {t : TaskId} {f : FrameId} {s : SchedulerId}
  {w : Worker}

theorem relinks_resumeFrame {value : V} {error : Option (Error V)} {activation : Activation V C}
    (firm : Firm st c.state) (runs : error = none → (c.state.tasks.get? t).isSome = true) :
    Gives (fun config => Relinks st config.state) (Firm st) (c.resumeFrame t f value error activation) := by
  refine (relinks_resume firm runs).bind fun (resumption, st₁) relinks => ?_
  dsimp only
  split
  · exact .pure relinks
  · exact .pure relinks

theorem firm_beginRun (firm : Firm st c.state) :
    Gives (fun config => Firm st config.state) (Firm st) (c.beginRun t w after) :=
  Gives.bind (Gives.bind (firm.gives (Framed.beginRun rfl)) fun _ firm => .pure firm) fun _ firm => .pure firm

theorem firm_runReady (firm : Firm st c.state) :
    Gives (fun config => Firm st config.state) (Firm st) (c.runReady s w after otherwise) := by
  refine (firm.gives (Framed.takeReady rfl)).bind fun (next, st₁) firm => ?_
  dsimp only
  split
  · exact firm_beginRun firm
  · exact .pure firm

theorem firm_suspendRun (firm : Firm st c.state) :
    Gives (fun config => Firm st config.state) (Firm st) (c.suspendRun t after) := by
  have ended : Firm st (c.state.endRun t) := ⟨firm.caller, firm.known⟩
  exact Gives.bind (Gives.bind (ended.gives (Framed.park rfl)) fun _ firm => .pure firm) fun _ firm => .pure firm

variable [Inhabited V]

theorem relinks_cancelNext {doomed : List FrameId} {target : FrameId} {value : V} (firm : Firm st c.state) :
    Gives (fun config => Relinks st config.state) (Firm st) (c.cancelNext t doomed target value after) := by
  cases doomed with
  | nil => exact .pure (.keeps ⟨firm.caller, firm.known⟩)
  | cons f rest => exact relinks_resumeFrame firm (by simp)

theorem relinks_unwind {target : FrameId} {value : V} (firm : Firm st c.state) :
    Gives (fun config => Relinks st config.state) (Firm st) (c.unwind t target value after) := by
  refine .find firm fun task _ => .check firm fun _ => ?_
  split
  · exact relinks_cancelNext firm
  · exact .fail firm

theorem relinks_jump {target : FrameId} {value : V} (firm : Firm st c.state) :
    Gives (fun config => Relinks st config.state) (Firm st) (c.jump t f target value after) := by
  refine .find firm fun task _ => .find firm fun frame _ => ?_
  have moved {top : Option FrameId} :
      Firm st (c.mapState (·.modifyTask t fun task => { task with top := top })).state :=
    ⟨firm.caller, firm.known⟩
  refine .ite (fun _ => .pure (.keeps ⟨firm.caller, firm.known⟩)) fun _ => relinks_unwind moved

theorem firm_finishFrame {result : Except (Error V) V} (firm : Firm st c.state) :
    Gives (fun config => Firm st config.state) (Firm st) (c.finishFrame t f result after) := by
  refine .find firm fun task _ => .check firm fun _ => .find firm fun frame _ => ?_
  split
  · have emptied : Firm st ((c.state.modifyTask t fun task => { task with top := none }).endRun t) :=
      ⟨firm.caller, firm.known⟩
    exact Gives.bind (Gives.bind (emptied.gives (Framed.finish rfl)) fun _ firm => .pure firm) fun _ firm => .pure firm
  · exact .pure ⟨firm.caller, firm.known⟩

/-- An answer links the body of a guard at most. -/
theorem relinks_deliver (a : Answer V) : Gives (fun config => Relinks c.state config.state) (Firm c.state) (c.deliver a) := by
  obtain ⟨st, focus, stack⟩ := c
  have firm : Firm st st := .refl st
  cases stack with
  | nil => exact .pure (.keeps firm)
  | cons activation stack =>
    cases activation with
    | frame t f after =>
      cases a with
      | done value => exact (firm_finishFrame firm).mono (fun _ => .keeps) fun _ => id
      | throw error => exact (firm_finishFrame firm).mono (fun _ => .keeps) fun _ => id
      | suspended => exact (firm_suspendRun firm).mono (fun _ => .keeps) fun _ => id
      | jump target value => exact relinks_jump firm
    | cancel t doomed target value after => exact relinks_cancelNext firm
    | call next => exact .pure (.keeps firm)
    | opened x => exact .pure (.keeps ⟨rfl, id⟩)

theorem relinks_stepCode {program : Program V C}
    (exist : ∀ f k next, program = .ask (.attach f (some k)) next → (c.state.frames.get? k).isSome = true) :
    Gives (fun config => Relinks c.state config.state) (Firm c.state) (c.stepCode program) := by
  have firm : Firm c.state c.state := .refl c.state
  cases program with
  | answer a => exact relinks_deliver a
  | unwind t target value next => exact relinks_unwind firm
  | drive s next => exact .pure (.keeps firm)
  | await condition limit next => exact .pure (.keeps firm)
  | callNative g name context arguments next =>
    refine .find firm fun registry _ => ?_
    split
    · exact .pure (.keeps firm)
    · exact .pure (.keeps firm)
  | ask request next =>
    refine (relinks_serve fun f k same => ?_).bind fun _ relinks => .pure relinks
    subst same
    exact exist f k next rfl
  | newFrame label body next => exact .pure (.keeps (firm.addFrame rfl))
  | newActor first handler next => exact .pure (.keeps ⟨rfl, id⟩)
  | register g name native next =>
    have registers : Gives (fun done => Firm c.state done.2) (Firm c.state) (c.state.register g name native) :=
      .find firm fun registry _ => .pure ⟨rfl, id⟩
    exact registers.bind fun _ firm => .pure (.keeps firm)
  | within x t inside next =>
    refine Gives.bind ((Framed.mayOpen rfl).mono (fun _ => id) fun _ => firm.framed) fun may _ => ?_
    exact .ite (fun _ => .pure (.keeps ⟨rfl, id⟩)) fun _ => .pure (.keeps firm)

/-- A step changes one link at most.  One that ends by a fault changes none. -/
theorem relinks_step
    (exist : ∀ f k next, c.focus = .code (.ask (.attach f (some k)) next) → (c.state.frames.get? k).isSome = true) :
    Gives (fun config => Relinks c.state config.state) (Firm c.state) c.step := by
  have firm : Firm c.state c.state := .refl c.state
  unfold step
  split
  · next p focus => exact relinks_stepCode fun f k next same => exist f k next (same ▸ focus)
  · refine .find firm fun task found => ?_
    split
    · exact .fail firm
    · refine relinks_resumeFrame ⟨rfl, id⟩ fun _ => ?_
      simp [mapState, get?_modifyTask, found]
  · exact (firm_runReady firm).mono (fun _ => .keeps) fun _ => id
  · refine .ite (fun _ => .pure (.keeps firm)) fun _ => ?_
    split
    · exact (firm_runReady firm).mono (fun _ => .keeps) fun _ => id
    · exact .pure (.keeps firm)
  · exact (firm_runReady firm).mono (fun _ => .keeps) fun _ => id
  · exact (firm_beginRun firm).mono (fun _ => .keeps) fun _ => id
  · exact .pure (.keeps firm)

end Config

/-! ## Walks with and without a bound -/

namespace State

variable {st : State V C} {f g : FrameId} {path : List FrameId}

/-- A bounded walk that is shorter than its bound came to a root. -/
theorem walk_of_short {bound : Nat} (short : (st.chainUpTo bound f).length < bound) :
    Walk st.caller f (st.chainUpTo bound f) := by
  induction bound generalizing f with
  | zero => omega
  | succ bound inductionHypothesis =>
    rw [chainUpTo_succ] at short ⊢
    cases link : st.caller f with
    | none => exact .root link
    | some g =>
      simp only [link, Option.elim_some, List.length_cons, Nat.add_lt_add_iff_right] at short
      exact .down link (inductionHypothesis short)

namespace Rooted

variable (rooted : st.Rooted)
include rooted

/-- From every frame callers lead to a root. -/
theorem walk (known : (st.frames.get? f).isSome = true) : Walk st.caller f (st.chain f) := by
  have fits := st.frames.length_le_size (chainUpTo_nodup rooted.acyclic (st.frames.size + 1) f)
    fun g member => rooted.known_of_mem known member
  have walk : Walk st.caller f (st.chainUpTo (st.frames.size + 1) f) := walk_of_short (by omega)
  rwa [rooted.chainUpTo_eq known 1] at walk

/-- A frame is one deeper than its caller. -/
theorem chain_cons (link : st.caller f = some g) : st.chain f = f :: st.chain g :=
  (rooted.walk (exists_of_caller link)).unique (.down link (rooted.walk (rooted.known link)))

theorem chain_root (known : (st.frames.get? f).isSome = true) (last : st.caller f = none) : st.chain f = [f] :=
  (rooted.walk known).unique (.root last)

end Rooted

/-- What is seen of a frame. -/
theorem exists_frameView (known : (st.frames.get? f).isSome = true) :
    ∃ view, st.frameView f = .ok view ∧ view.caller = st.caller f ∧ view.depth = (st.chain f).length := by
  obtain ⟨frame, found⟩ := Option.isSome_iff_exists.1 known
  have looks : st.frame f = .ok frame := frame_ok.2 found
  exact ⟨⟨frame.label, frame.caller, (st.chain f).length⟩, by simp only [frameView, looks]; rfl,
    by simp [State.caller, found], rfl⟩

/-- The walks that start at a frame come to an end, and find what lies on the way to its root: its depth, whether
another frame is among them, and the frames above one of them. -/
structure Descends (st : State V C) (f : FrameId) (path : List FrameId) : Prop where
  walk : Walk st.caller f path
  distinct : path.Nodup
  depth : ∃ view, st.frameView f = .ok view ∧ view.depth = path.length ∧ (st.caller f = none → view.depth = 1) ∧
    ∀ g, st.caller f = some g → ∃ below, st.frameView g = .ok below ∧ view.depth = 1 + below.depth
  isOnChain : ∀ g, st.isOnChain g (some f) = true ↔ g ∈ path
  framesAbove : ∀ g, st.framesAbove (some f) g = if g ∈ path then some (path.takeWhile (· ≠ g)) else none

theorem Rooted.descends (rooted : st.Rooted) (known : (st.frames.get? f).isSome = true) :
    st.Descends f (st.chain f) where
  walk := rooted.walk known
  distinct := chainUpTo_nodup rooted.acyclic _ _
  depth := by
    obtain ⟨view, seen, _, depth⟩ := exists_frameView known
    refine ⟨view, seen, depth, fun last => ?_, fun g link => ?_⟩
    · rw [depth, rooted.chain_root known last]
      rfl
    · obtain ⟨below, seen', _, depth'⟩ := exists_frameView (rooted.known link)
      refine ⟨below, seen', ?_⟩
      rw [depth, depth', rooted.chain_cons link, List.length_cons, Nat.add_comm]
  isOnChain g := st.isOnChain_iff g (some f)
  framesAbove _ := rfl

end State

namespace Crew

/-- Whoever attaches a frame knows the new caller: it exists. -/
def Founded (c : Crew V C) (a : Agent V C) : Prop :=
  match a.focus with
  | .code (.ask (.attach _ (some caller)) _) => (c.state.frames.get? caller).isSome = true
  | _ => True

variable [Inhabited V]

theorem Founded.relinks {c : Crew V C} {a : Agent V C} (founded : c.Founded a) :
    Gives (fun config => State.Relinks c.state config.state) (State.Firm c.state) (a.config c.state).step := by
  refine Config.relinks_step fun f k next focus => ?_
  have focus : a.focus = .code (.ask (.attach f (some k)) next) := focus
  rw [Founded, focus] at founded
  exact founded

theorem Run.relinks (run : Run V C Founded) {i : Nat} (bound : i < run.length) :
    State.Relinks (run.crew i).state (run.crew (i + 1)).state := by
  have step := run.steps i bound
  revert step
  generalize run.crew i = c
  generalize run.crew (i + 1) = c'
  generalize run.resumed i = label
  intro step
  cases step with
  | act permitted step =>
    have gives := Founded.relinks permitted
    rw [step] at gives
    exact gives
  | join | lapse | switch => exact .keeps ⟨rfl, id⟩

theorem Run.rooted (run : Run V C Founded) : ∀ i ≤ run.length, (run.crew i).state.Rooted := by
  intro i
  induction i with
  | zero =>
    intro _
    obtain ⟨parallelism, starts⟩ := run.starts
    have none (f : FrameId) : (run.crew 0).state.caller f = none := by simp [starts, initial, State.initial, State.caller]
    refine ⟨fun f cycle => ?_, fun {f g} link => ?_⟩
    · obtain ⟨g, link, _⟩ := Relation.TransGen.head'_iff.1 cycle
      simp [none] at link
    · simp [none] at link
  | succ i inductionHypothesis =>
    intro bound
    exact (run.relinks bound).rooted (inductionHypothesis (by omega))

/-- Whatever frames were attached, called and continued in, and whoever shares them: callers lead from every frame
to a root.  A thread that attaches a frame to one that would put it below itself ends by a fault, and nothing
changes; any other attach gives that frame its caller, and nothing else changes.  A step changes one link at most,
and one that ends by a fault changes none. -/
theorem Run.callers_end (run : Run V C Founded) {i : Nat} (bound : i ≤ run.length) :
    let st := (run.crew i).state
    Acyclic st.caller ∧
    (∀ f, (st.frames.get? f).isSome = true → ∃ path, st.Descends f path) ∧
    (∀ f c next stack, (st.frames.get? f).isSome = true →
      (¬ Acyclic (Function.update st.caller f c) →
        (⟨st, .code (.ask (.attach f c) next), stack⟩ : Config V C).step = .error ⟨.attachedBelowItself, st⟩) ∧
      (Acyclic (Function.update st.caller f c) → ∃ st',
        (⟨st, .code (.ask (.attach f c) next), stack⟩ : Config V C).step = .ok ⟨st', .code (next ()), stack⟩ ∧
        st' = st.modifyFrame f (fun frame => { frame with caller := c }) ∧
        st'.caller = Function.update st.caller f c)) ∧
    ∀ a, (run.crew i).Founded a →
      (∀ config, (a.config st).step = .ok config → st.Relinks config.state) ∧
      ∀ crash, (a.config st).step = .error crash → crash.state.caller = st.caller := by
  intro st
  have rooted : st.Rooted := run.rooted i bound
  refine ⟨rooted.acyclic, fun f known => ⟨_, rooted.descends known⟩, fun f c next stack known => ?_,
    fun a founded => ?_⟩
  · obtain ⟨refused, done⟩ := State.attach_cases rooted.acyclic known c
    refine ⟨fun cycle => ?_, fun apart => ⟨_, ?_, rfl, State.caller_attach known c⟩⟩
    · simp only [Config.step, Config.stepCode, State.serve, refused cycle]
      rfl
    · simp only [Config.step, Config.stepCode, State.serve, done apart]
      rfl
  · have gives := founded.relinks
    refine ⟨fun config step => ?_, fun crash step => ?_⟩
    · have step : (a.config (run.crew i).state).step = .ok config := step
      rw [step] at gives
      exact gives
    · have step : (a.config (run.crew i).state).step = .error crash := step
      rw [step] at gives
      exact gives.caller

/-! ### Three frames that are linked anew

The third frame returns to the second and the second to the first.  Then the third is put on the first alone, and the
first may not return to the second. -/

def ladder : Program Unit Empty :=
  let idle : Body Unit Empty := fun _ _ _ => .answer (.done ())
  .newFrame "first" idle fun first =>
  .newFrame "second" idle fun second =>
  .newFrame "third" idle fun third =>
  .ask (.attach second (some first)) fun _ =>
  .ask (.attach third (some second)) fun _ =>
  .ask (.attach third (some first)) fun _ =>
  .ask (.attach first (some second)) fun _ => .answer (.done ())

/-- The host after so many steps. -/
def ladderHost (n : Nat) : Config Unit Empty := (Config.start (.initial 1) ladder).after n

theorem ladder_ok : ∀ n < 6, (ladderHost n).step.isOk = true := by decide +kernel

theorem ladder_founded : ∀ n < 6, Founded (ladderHost n).alone (ladderHost n).agent := by
  intro n bound
  interval_cases n <;> trivial

def ladderRun : Run Unit Empty Founded := .ofHost 1 ladder 6 ladder_ok ladder_founded

theorem ladder_ends : 7 ≤ ladderRun.length ∧ Acyclic (ladderRun.crew 7).state.caller ∧
    (∃ path, (ladderRun.crew 7).state.Descends ⟨3⟩ path) ∧ (ladderRun.crew 7).state.chain ⟨3⟩ = [⟨3⟩, ⟨1⟩] ∧
    ∀ next, (⟨(ladderRun.crew 7).state, .code (.ask (.attach ⟨1⟩ (some ⟨2⟩)) next), []⟩ : Config Unit Empty).step =
      .error ⟨.attachedBelowItself, (ladderRun.crew 7).state⟩ := by
  have reached : 7 ≤ ladderRun.length := by decide
  obtain ⟨acyclic, ends, attaches, _⟩ := ladderRun.callers_end reached
  refine ⟨reached, acyclic, ends ⟨3⟩ (by decide +kernel), by decide +kernel, fun next => ?_⟩
  refine (attaches ⟨1⟩ (some ⟨2⟩) next [] (by decide +kernel)).1 fun apart => ?_
  have link : (ladderRun.crew 7).state.caller ⟨2⟩ = some ⟨1⟩ := by decide +kernel
  exact (acyclic.update_iff.1 apart) ⟨2⟩ rfl (.single link)

end Crew

end Tasking
