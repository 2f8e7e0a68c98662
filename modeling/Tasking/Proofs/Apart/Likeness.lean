import Mathlib.Data.List.Forall2
import Tasking.Proofs.Lookup

/-! # Code that is alike

Two runs may differ in nothing but the numbers that things have, the values that code hands about, and what
goes on beside them.  A `Likeness` says which thing of the one run stands for which of the other, and which
value for which.  All that the runtime and its code handle is alike if it is made of such things and values
in the same way.

Programs are alike if they make like requests as long as they get like replies (`Likeness.Programs`).  So a
program that is like itself uses numbers as names only.  Such a program asks for nothing that concerns a
scheduler as a whole: it neither looks at a scheduler nor stops one, and only the program of a host may drive
one.
-/

namespace Tasking

variable {V C : Type}

/-- What stands for what in two runs. -/
structure Likeness (V C : Type) [Inhabited V] where
  /-- The things that belong to the code in question alone, by kind and number. -/
  holds : Kind → Nat → Prop
  id : {kind : Kind} → Id kind → Id kind → Prop
  value : V → V → Prop
  content : C → C → Prop
  /-- Ready queues that agree on the tasks in question. -/
  queue : List TaskId → List TaskId → Prop
  /-- How many things of a kind there are in the one run and in the other. -/
  level : Kind → Nat → Nat → Prop
  same_iff : ∀ {kind : Kind} {i i' j j' : Id kind}, id i i' → id j j' → (i = j ↔ i' = j')
  /-- Nothing but schedulers and registries is used by others too. -/
  held : ∀ {kind : Kind} {i i' : Id kind}, id i i' → kind ≠ .scheduler → kind ≠ .registry →
    holds kind i.number
  default : value default default
  push : ∀ {l l' : List TaskId} {t t' : TaskId}, queue l l' → id t t' → queue (l ++ [t]) (l' ++ [t'])
  level_le : ∀ {kind : Kind} {n n' : Nat}, level kind n n' → n' ≤ n
  grows : ∀ {kind : Kind} {n n' : Nat}, level kind n n' → holds kind (n + 1) →
    id (⟨n + 1⟩ : Id kind) ⟨n' + 1⟩ ∧ level kind (n + 1) (n' + 1)

namespace Likeness

variable [Inhabited V] (L : Likeness V C)

/-! ## Data -/

/-- Refusals or results that are alike. -/
inductive Replies {ε ε' α α' : Type} (bad : ε → ε' → Prop) (good : α → α' → Prop) :
    Except ε α → Except ε' α' → Prop where
  | error {e : ε} {e' : ε'} (alike : bad e e') : Replies bad good (.error e) (.error e')
  | ok {a : α} {a' : α'} (alike : good a a') : Replies bad good (.ok a) (.ok a')

structure Refusals (d d' : Deadlock) : Prop where
  requester : L.id d.requester d'.requester
  path : List.Forall₂ L.id d.path d'.path

inductive Errors : Error V → Error V → Prop where
  | thrown {v v' : V} (value : L.value v v') : Errors (.thrown v) (.thrown v')
  | deadlock {d d' : Deadlock} (refusal : L.Refusals d d') : Errors (.deadlock d) (.deadlock d')
  | cancelled : Errors .cancelled .cancelled

inductive Outcomes : Outcome V → Outcome V → Prop where
  | done {v v' : V} (value : L.value v v') : Outcomes (.done v) (.done v')
  | failed {t t' : TaskId} {e e' : Error V} (task : L.id t t') (error : L.Errors e e') :
      Outcomes (.failed ⟨t, e⟩) (.failed ⟨t', e'⟩)

inductive Answers : Answer V → Answer V → Prop where
  | done {v v' : V} (value : L.value v v') : Answers (.done v) (.done v')
  | throw {e e' : Error V} (error : L.Errors e e') : Answers (.throw e) (.throw e')
  | suspended : Answers .suspended .suspended
  | jump {f f' : FrameId} {v v' : V} (target : L.id f f') (value : L.value v v') :
      Answers (.jump f v) (.jump f' v')

inductive Targets : WaitTarget → WaitTarget → Prop where
  | resource {r r' : ResourceId} (resource : L.id r r') : Targets (.resource r) (.resource r')
  | task {t t' : TaskId} (task : L.id t t') : Targets (.task t) (.task t')
  | external : Targets .external .external

structure Contexts (c c' : Context) : Prop where
  task : L.id c.task c'.task
  frame : L.id c.frame c'.frame

structure Lines (l l' : Line TaskId) : Prop where
  front : List.Forall₂ L.id l.front l'.front
  back : List.Forall₂ L.id l.back l'.back

structure Tasks (task task' : Task V) : Prop where
  scheduler : L.id task.scheduler task'.scheduler
  life : task.life = task'.life
  notified : task.notified = task'.notified
  top : Option.Rel L.id task.top task'.top
  value : L.value task.value task'.value
  error : Option.Rel L.Errors task.error task'.error
  worker : task.worker = task'.worker
  waiting : Option.Rel L.Targets task.waiting task'.waiting
  external : task.external = task'.external
  bound : task.bound = task'.bound
  outcome : Option.Rel L.Outcomes task.outcome task'.outcome
  joiners : L.Lines task.joiners task'.joiners
  linked : task.linked = task'.linked
  listed : task.listed = task'.listed

structure Resources (resource resource' : Resource) : Prop where
  name : resource.name = resource'.name
  owner : Option.Rel L.id resource.owner resource'.owner
  waiters : L.Lines resource.waiters resource'.waiters

structure Exclusives (x x' : Exclusive V) : Prop where
  resource : L.id x.resource x'.resource
  payload : L.value x.payload x'.payload
  inUse : x.inUse = x'.inUse

structure Views (view view' : Frame.View) : Prop where
  label : view.label = view'.label
  caller : Option.Rel L.id view.caller view'.caller
  depth : view.depth = view'.depth

/-- Schedulers that treat the tasks in question in the same way. -/
structure Schedulers (scheduler scheduler' : Scheduler) : Prop where
  settings : scheduler.settings = scheduler'.settings
  isShutDown : scheduler.isShutDown = scheduler'.isShutDown
  ready : L.queue scheduler.ready.toList scheduler'.ready.toList

inductive Phases : Phase V → Phase V → Prop where
  | start {f f' : FrameId} (body : L.id f f') : Phases (.start f) (.start f')
  | waiting {f f' : FrameId} {v v' : V} (body : L.id f f') (value : L.value v v') :
      Phases (.waiting f v) (.waiting f' v')
  | held : Phases .held .held
  | released : Phases .released .released

/-! ## Requests and programs -/

/-- Requests that are alike, and which replies to them are. -/
inductive Asks : (q q' : Request V C) → (q.Reply → q'.Reply → Prop) → Prop where
  | spawn {s s' : SchedulerId} {f f' : FrameId} (scheduler : L.id s s') (entry : L.id f f') :
      Asks (.spawn s f) (.spawn s' f') (Replies Eq L.id)
  | start {t t' : TaskId} (task : L.id t t') : Asks (.start t) (.start t') fun _ _ => True
  | ready {t t' : TaskId} (task : L.id t t') : Asks (.ready t) (.ready t') fun _ _ => True
  | yield {t t' : TaskId} (task : L.id t t') : Asks (.yield t) (.yield t') fun _ _ => True
  | waitExternal {t t' : TaskId} (task : L.id t t') :
      Asks (.waitExternal t) (.waitExternal t') fun _ _ => True
  | pause {t t' : TaskId} {f f' : FrameId} (task : L.id t t') (frame : L.id f f') :
      Asks (.pause t f) (.pause t' f') fun _ _ => True
  | move {t t' : TaskId} (task : L.id t t') (life : Life) : Asks (.move t life) (.move t' life) Eq
  | waitFor {t t' c c' : TaskId} (task : L.id t t') (child : L.id c c') :
      Asks (.waitFor t c) (.waitFor t' c') (Replies L.Refusals (Option.Rel L.Outcomes))
  | task {t t' : TaskId} (task : L.id t t') : Asks (.task t) (.task t') L.Tasks
  | newGuard {r r' : ResourceId} {f f' : FrameId} (resource : L.id r r') (body : L.id f f') :
      Asks (.newGuard r f) (.newGuard r' f') L.id
  | newJoin {c c' : TaskId} (child : L.id c c') : Asks (.newJoin c) (.newJoin c') L.id
  | newMessage {a a' : ActorId} {v v' : V} (actor : L.id a a') (message : L.value v v') :
      Asks (.newMessage a v) (.newMessage a' v') L.id
  | attach {f f' : FrameId} {g g' : Option FrameId} (frame : L.id f f') (caller : Option.Rel L.id g g') :
      Asks (.attach f g) (.attach f' g') fun _ _ => True
  | frame {f f' : FrameId} (frame : L.id f f') : Asks (.frame f) (.frame f') L.Views
  | newResource (name : Option String) : Asks (.newResource name) (.newResource name) L.id
  | tryAcquire {r r' : ResourceId} {t t' : TaskId} (resource : L.id r r') (task : L.id t t') :
      Asks (.tryAcquire r t) (.tryAcquire r' t') Eq
  | acquire {r r' : ResourceId} {t t' : TaskId} (resource : L.id r r') (task : L.id t t') :
      Asks (.acquire r t) (.acquire r' t') (Replies L.Refusals Eq)
  | release {r r' : ResourceId} {t t' : TaskId} (resource : L.id r r') (task : L.id t t') :
      Asks (.release r t) (.release r' t') fun _ _ => True
  | resource {r r' : ResourceId} (resource : L.id r r') : Asks (.resource r) (.resource r') L.Resources
  | findCycle {t t' : TaskId} {w w' : WaitTarget} (task : L.id t t') (target : L.Targets w w') :
      Asks (.findCycle t w) (.findCycle t' w') (Option.Rel (List.Forall₂ L.id))
  | newExclusive {r r' : ResourceId} {v v' : V} (resource : L.id r r') (payload : L.value v v') :
      Asks (.newExclusive r v) (.newExclusive r' v') L.id
  | exclusive {x x' : ExclusiveId} (exclusive : L.id x x') :
      Asks (.exclusive x) (.exclusive x') L.Exclusives
  | setPayload {x x' : ExclusiveId} {v v' : V} (exclusive : L.id x x') (payload : L.value v v') :
      Asks (.setPayload x v) (.setPayload x' v') fun _ _ => True
  | actorState {a a' : ActorId} (actor : L.id a a') : Asks (.actorState a) (.actorState a') L.id
  | newRegistry : Asks .newRegistry .newRegistry L.id
  | intern {g g' : RegistryId} (registry : L.id g g') (own : L.holds .registry g.number) (name : String) :
      Asks (.intern g name) (.intern g' name) Eq
  | lookup {g g' : RegistryId} (registry : L.id g g') (name : String) :
      Asks (.lookup g name) (.lookup g' name) Eq
  | nameOf {g g' : RegistryId} (registry : L.id g g') (symbol : Symbol) :
      Asks (.nameOf g symbol) (.nameOf g' symbol) Eq
  | findNative {g g' : RegistryId} (registry : L.id g g') (name : String) :
      Asks (.findNative g name) (.findNative g' name) Eq
  | closeRegistry {g g' : RegistryId} (registry : L.id g g') (own : L.holds .registry g.number) :
      Asks (.closeRegistry g) (.closeRegistry g') fun _ _ => True
  | registry {g g' : RegistryId} (registry : L.id g g') : Asks (.registry g) (.registry g') Eq
  | thread : Asks .thread .thread Eq
  | newCell {x x' : C} (content : L.content x x') : Asks (.newCell x) (.newCell x') L.id
  | read {i i' : CellId} (cell : L.id i i') : Asks (.read i) (.read i') L.content
  | write {i i' : CellId} {x x' : C} (cell : L.id i i') (content : L.content x x') :
      Asks (.write i x) (.write i' x') fun _ _ => True
  | update {i i' : CellId} {f f' : C → C} (cell : L.id i i')
      (change : ∀ x x', L.content x x' → L.content (f x) (f' x')) :
      Asks (.update i f) (.update i' f') fun _ _ => True

/-- Programs that make like requests as long as they get like replies.  The first argument says whether
they may drive schedulers. -/
inductive Programs : Bool → Program V C → Program V C → Prop where
  | answer {drives : Bool} {a a' : Answer V} (answer : L.Answers a a') :
      Programs drives (.answer a) (.answer a')
  | ask {drives : Bool} {q q' : Request V C} {alike : q.Reply → q'.Reply → Prop}
      {next : q.Reply → Program V C} {next' : q'.Reply → Program V C} (request : L.Asks q q' alike)
      (rest : ∀ reply reply', alike reply reply' → Programs drives (next reply) (next' reply')) :
      Programs drives (.ask q next) (.ask q' next')
  | newFrame {drives : Bool} {label : String} {body body' : Body V C} {next next' : FrameId → Program V C}
      (alike : ∀ c c' v v' e e', L.Contexts c c' → L.value v v' → Option.Rel L.Errors e e' →
        Programs false (body c v e) (body' c' v' e'))
      (rest : ∀ f f', L.id f f' → Programs drives (next f) (next' f')) :
      Programs drives (.newFrame label body next) (.newFrame label body' next')
  | newActor {drives : Bool} {v v' : V} {handler handler' : Handler V C} {next next' : ActorId → Program V C}
      (first : L.value v v')
      (alike : ∀ c c' x x' v v', L.Contexts c c' → L.id x x' → L.value v v' →
        Programs false (handler c x v) (handler' c' x' v'))
      (rest : ∀ a a', L.id a a' → Programs drives (next a) (next' a')) :
      Programs drives (.newActor v handler next) (.newActor v' handler' next')
  | register {drives : Bool} {g g' : RegistryId} {name : String} {native native' : Native V C}
      {next next' : Except HostError Symbol → Program V C} (registry : L.id g g')
      (own : L.holds .registry g.number)
      (alike : ∀ c c' vs vs', L.Contexts c c' → List.Forall₂ L.value vs vs' →
        Programs false (native c vs) (native' c' vs'))
      (rest : ∀ reply, Programs drives (next reply) (next' reply)) :
      Programs drives (.register g name native next) (.register g' name native' next')
  | callNative {drives : Bool} {g g' : RegistryId} {name : String} {c c' : Context} {vs vs' : List V}
      {next next' : Except HostError (Answer V) → Program V C} (registry : L.id g g')
      (context : L.Contexts c c') (arguments : List.Forall₂ L.value vs vs')
      (rest : ∀ reply reply', Replies Eq L.Answers reply reply' →
        Programs drives (next reply) (next' reply')) :
      Programs drives (.callNative g name c vs next) (.callNative g' name c' vs' next')
  | unwind {drives : Bool} {t t' : TaskId} {f f' : FrameId} {v v' : V} {next next' : Program V C}
      (task : L.id t t') (target : L.id f f') (value : L.value v v')
      (rest : Programs drives next next') :
      Programs drives (.unwind t f v next) (.unwind t' f' v' next')
  | drive {s s' : SchedulerId} {next next' : Nat → Program V C} (scheduler : L.id s s')
      (rest : ∀ n n', Programs true (next n) (next' n')) :
      Programs true (.drive s next) (.drive s' next')
  | within {drives : Bool} {x x' : ExclusiveId} {t t' : TaskId} {inside inside' : Program V C}
      {next next' : Option (Answer V) → Program V C} (exclusive : L.id x x') (task : L.id t t')
      (alike : Programs drives inside inside')
      (rest : ∀ reply reply', Option.Rel L.Answers reply reply' →
        Programs drives (next reply) (next' reply')) :
      Programs drives (.within x t inside next) (.within x' t' inside' next')
  | await {drives : Bool} {t t' : TaskId} {next next' : Program V C} (task : L.id t t')
      (rest : Programs drives next next') :
      Programs drives (.await (.outcome t) none next) (.await (.outcome t') none next')

def Bodies (body body' : Body V C) : Prop :=
  ∀ c c' v v' e e', L.Contexts c c' → L.value v v' → Option.Rel L.Errors e e' →
    L.Programs false (body c v e) (body' c' v' e')

def Handlers (handler handler' : Handler V C) : Prop :=
  ∀ c c' x x' v v', L.Contexts c c' → L.id x x' → L.value v v' →
    L.Programs false (handler c x v) (handler' c' x' v')

def Natives (native native' : Native V C) : Prop :=
  ∀ c c' vs vs', L.Contexts c c' → List.Forall₂ L.value vs vs' →
    L.Programs false (native c vs) (native' c' vs')

inductive Codes : Frame.Code V (Body V C) → Frame.Code V (Body V C) → Prop where
  | host {body body' : Body V C} (alike : L.Bodies body body') : Codes (.host body) (.host body')
  | guard {r r' : ResourceId} {phase phase' : Phase V} (resource : L.id r r')
      (alike : L.Phases phase phase') : Codes (.guard r phase) (.guard r' phase')
  | message {a a' : ActorId} {v v' : V} (actor : L.id a a') (message : L.value v v') (delivered : Bool) :
      Codes (.message a v delivered) (.message a' v' delivered)
  | join {c c' : TaskId} (child : L.id c c') (parked : Bool) : Codes (.join c parked) (.join c' parked)

structure Frames (frame frame' : Frame V (Body V C)) : Prop where
  label : frame.label = frame'.label
  caller : Option.Rel L.id frame.caller frame'.caller
  code : L.Codes frame.code frame'.code

structure Actors (actor actor' : Actor (Handler V C)) : Prop where
  state : L.id actor.state actor'.state
  handler : L.Handlers actor.handler actor'.handler

structure Names (tables tables' : Registry.Tables (Native V C)) : Prop where
  names : tables.names = tables'.names
  symbols : tables.symbols = tables'.symbols
  natives : ∀ symbol : Symbol, Option.Rel L.Natives tables.natives[symbol]? tables'.natives[symbol]?
  count : tables.natives.size = tables'.natives.size

def Registries (registry registry' : Registry (Native V C)) : Prop :=
  Option.Rel L.Names registry.tables registry'.tables

variable {L}

/-- Code that drives no scheduler can stand where code may. -/
theorem Programs.host {drives : Bool} {p p' : Program V C} (alike : L.Programs drives p p') :
    L.Programs true p p' := by
  induction alike with
  | answer answer => exact .answer answer
  | ask request _ rest => exact .ask request rest
  | newFrame alike _ _ rest => exact .newFrame alike rest
  | newActor first alike _ _ rest => exact .newActor first alike rest
  | register registry own alike _ _ rest => exact .register registry own alike rest
  | callNative registry context arguments _ rest => exact .callNative registry context arguments rest
  | unwind task target value _ rest => exact .unwind task target value rest
  | drive scheduler _ rest => exact .drive scheduler rest
  | within exclusive task _ _ alike rest => exact .within exclusive task alike rest
  | await task _ rest => exact .await task rest

theorem Programs.mono {drives : Bool} {p p' : Program V C} (alike : L.Programs false p p') :
    L.Programs drives p p' := by
  cases drives with
  | false => exact alike
  | true => exact alike.host

/-! ## Lines -/

namespace Lines

variable {l l' : Line TaskId} {t t' : TaskId}

theorem empty : L.Lines .empty .empty := ⟨.nil, .nil⟩

theorem toList (lines : L.Lines l l') : List.Forall₂ L.id l.toList l'.toList :=
  List.rel_append lines.front (List.rel_reverse lines.back)

theorem push (lines : L.Lines l l') (last : L.id t t') : L.Lines (l.push t) (l'.push t') :=
  ⟨lines.front, .cons last lines.back⟩

theorem pop (lines : L.Lines l l') : Option.Rel (fun p p' => L.id p.1 p'.1 ∧ L.Lines p.2 p'.2) l.pop? l'.pop? := by
  obtain ⟨front, back⟩ := l
  obtain ⟨front', back'⟩ := l'
  obtain ⟨heads, tails⟩ := lines
  cases heads with
  | cons first rest => exact .some ⟨first, rest, tails⟩
  | nil =>
    -- The head of the line is used up, and its tail is turned over.
    have turned := List.rel_reverse tails
    unfold Line.pop?
    dsimp only at turned ⊢
    revert turned
    generalize back.reverse = m, back'.reverse = m'
    intro turned
    cases turned with
    | nil => exact .none
    | cons first rest => exact .some ⟨first, rest, .nil⟩

end Lines

end Likeness

end Tasking
