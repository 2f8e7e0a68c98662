import Tasking.Proofs.Apart.Likeness
import Tasking.Proofs.Callers

/-! # States that are alike

`Likeness.Mirrors` says of the states of two runs that the things in question are alike.  `Likeness.Moves`
is what holds of one operation in both runs: it leads from states that are alike to such states, and in the
first run it changes nothing but things that the code in question holds (`State.Avoids`), except that its
tasks may get in line at a scheduler.

Of each way in which an operation changes a state it is shown here that it does so alike.
-/

namespace Tasking

variable {V C : Type}

theorem related_of_some {α β : Type} {alike : α → β → Prop} {x : Option α} {y : Option β} {a : α} {b : β}
    (related : Option.Rel alike x y) (left : x = some a) (right : y = some b) : alike a b := by
  subst left right
  cases related with
  | some alike => exact alike

theorem exists_of_related {α β : Type} {alike : α → β → Prop} {x : Option α} {y : Option β} {a : α}
    (related : Option.Rel alike x y) (left : x = some a) : ∃ b, y = some b ∧ alike a b := by
  subst left
  cases related with
  | some alike => exact ⟨_, rfl, alike⟩

theorem none_of_related {α β : Type} {alike : α → β → Prop} {x : Option α} {y : Option β}
    (related : Option.Rel alike x y) (left : x = none) : y = none := by
  subst left
  cases related
  rfl

theorem isSome_of_related {α β : Type} {alike : α → β → Prop} {x : Option α} {y : Option β}
    (related : Option.Rel alike x y) : x.isSome = y.isSome := by
  cases related <;> rfl

theorem related_bind {α β γ δ : Type} {alike : α → β → Prop} {like : γ → δ → Prop} {x : Option α} {y : Option β}
    {f : α → Option γ} {g : β → Option δ} (related : Option.Rel alike x y)
    (rest : ∀ a b, alike a b → Option.Rel like (f a) (g b)) : Option.Rel like (x.bind f) (y.bind g) := by
  cases related with
  | none => exact .none
  | some same => exact rest _ _ same

theorem related_map {α β γ δ : Type} {alike : α → β → Prop} {like : γ → δ → Prop} {x : Option α} {y : Option β}
    {f : α → γ} {g : β → δ} (related : Option.Rel alike x y) (rest : ∀ a b, alike a b → like (f a) (g b)) :
    Option.Rel like (x.map f) (y.map g) := by
  cases related with
  | none => exact .none
  | some same => exact .some (rest _ _ same)

theorem related_any {α β : Type} {alike : α → β → Prop} {x : Option α} {y : Option β} {p : α → Bool} {q : β → Bool}
    (related : Option.Rel alike x y) (same : ∀ a b, alike a b → p a = q b) : x.any p = y.any q := by
  cases related with
  | none => rfl
  | some alike => exact same _ _ alike

theorem Likeness.some_iff [Inhabited V] {L : Likeness V C} {kind : Kind} {i i' : Id kind} {x x' : Option (Id kind)}
    (related : Option.Rel L.id x x') (same : L.id i i') : x = some i ↔ x' = some i' := by
  cases related with
  | none => exact ⟨nofun, nofun⟩
  | some also => simp [L.same_iff also same]

namespace State

variable {st st₁ st₂ : State V C} {spared : Kind → Nat → Prop}

/-- How many things of a kind there are. -/
def size (st : State V C) : Kind → Nat
  | .task => st.tasks.size
  | .frame => st.frames.size
  | .resource => st.resources.size
  | .exclusive => st.exclusives.size
  | .actor => st.actors.size
  | .scheduler => st.schedulers.size
  | .registry => st.registries.size
  | .cell => st.cells.size

theorem size_modifyTask (st : State V C) (t : TaskId) (f : Task V → Task V) : (st.modifyTask t f).size = st.size := by
  funext kind
  cases kind <;> simp [size, modifyTask]

theorem size_modifyFrame (st : State V C) (f : FrameId) (change : Frame V (Body V C) → Frame V (Body V C)) :
    (st.modifyFrame f change).size = st.size := by
  funext kind
  cases kind <;> simp [size, modifyFrame]

theorem size_modifyResource (st : State V C) (r : ResourceId) (f : Resource → Resource) :
    (st.modifyResource r f).size = st.size := by
  funext kind
  cases kind <;> simp [size, modifyResource]

theorem size_modifyExclusive (st : State V C) (x : ExclusiveId) (f : Exclusive V → Exclusive V) :
    (st.modifyExclusive x f).size = st.size := by
  funext kind
  cases kind <;> simp [size, modifyExclusive]

theorem size_modifyRegistry (st : State V C) (g : RegistryId)
    (f : Registry (Native V C) → Registry (Native V C)) : (st.modifyRegistry g f).size = st.size := by
  funext kind
  cases kind <;> simp [size, modifyRegistry]

theorem size_modifyScheduler (st : State V C) (s : SchedulerId) (f : Scheduler → Scheduler) :
    (st.modifyScheduler s f).size = st.size := by
  funext kind
  cases kind <;> simp [size, modifyScheduler]

theorem size_modifyCell (st : State V C) (i : CellId) (f : C → C) :
    State.size { st with cells := st.cells.modify i f } = st.size := by
  funext kind
  cases kind <;> simp [size]

theorem size_beginRun {t : TaskId} {w : Worker} (begun : st.beginRun t w = .ok st₁) : st₁.size = st.size := by
  simp only [beginRun, advance, bind_ok, check_ok, pure_ok] at begun
  obtain ⟨_, ⟨_, _, _, rfl⟩, rfl⟩ := begun
  rw [size_modifyTask, setLife, size_modifyTask]

/-- No frame is below itself, and callers exist. -/
structure Rooted (st : State V C) : Prop where
  acyclic : Acyclic st.caller
  known : ∀ {f g}, st.caller f = some g → (st.frames.get? g).isSome = true

theorem Rooted.of_frames (rooted : st.Rooted) (same : st₁.frames = st.frames) : st₁.Rooted := by
  have callers : st₁.caller = st.caller := by
    funext f
    rw [caller, same, caller]
  exact ⟨callers ▸ rooted.acyclic, fun link => same ▸ rooted.known (callers ▸ link)⟩

/-- A new frame returns nowhere, as if it were not there. -/
theorem Rooted.addFrame (rooted : st.Rooted) {frame : Frame V (Body V C)} (rootless : frame.caller = none) :
    Rooted { st with frames := st.frames.add frame } := by
  have callers : State.caller { st with frames := st.frames.add frame } = st.caller := by
    funext f
    simp only [State.caller, Table.get?_add_eq]
    split
    · next fresh => simp [fresh, rootless]
    · rfl
  refine ⟨callers ▸ rooted.acyclic, fun {f g} link => ?_⟩
  rw [callers] at link
  have known := rooted.known link
  simp only [Table.get?_add_eq]
  split
  · rfl
  · exact known

end State

/-- A scheduler goes on as it was, but for its counters and for some tasks that got in line. -/
structure Scheduler.Gains (may : TaskId → Prop) (scheduler scheduler₁ : Scheduler) : Prop where
  settings : scheduler₁.settings = scheduler.settings
  isShutDown : scheduler₁.isShutDown = scheduler.isShutDown
  ready : ∃ new, scheduler₁.ready.toList = scheduler.ready.toList ++ new ∧ ∀ t ∈ new, may t

theorem Scheduler.Gains.refl {may : TaskId → Prop} (scheduler : Scheduler) : scheduler.Gains may scheduler :=
  ⟨rfl, rfl, [], by simp, by simp⟩

theorem Scheduler.Gains.trans {may : TaskId → Prop} {scheduler scheduler₁ scheduler₂ : Scheduler}
    (first : scheduler.Gains may scheduler₁) (second : scheduler₁.Gains may scheduler₂) :
    scheduler.Gains may scheduler₂ := by
  obtain ⟨new, line, mine⟩ := first.ready
  obtain ⟨new', line', mine'⟩ := second.ready
  refine ⟨second.settings.trans first.settings, second.isShutDown.trans first.isShutDown, new ++ new', ?_, ?_⟩
  · rw [line', line, List.append_assoc]
  · intro t member
    cases List.mem_append.1 member with
    | inl early => exact mine t early
    | inr late => exact mine' t late

/-- Nothing that is to be spared changed.  Schedulers go on but for tasks that need not be spared. -/
structure State.Avoids (spared : Kind → Nat → Prop) (st st₁ : State V C) : Prop where
  tasks : ∀ i : TaskId, spared .task i.number → st₁.tasks.get? i = st.tasks.get? i
  frames : ∀ i : FrameId, spared .frame i.number → st₁.frames.get? i = st.frames.get? i
  resources : ∀ i : ResourceId, spared .resource i.number → st₁.resources.get? i = st.resources.get? i
  exclusives : ∀ i : ExclusiveId, spared .exclusive i.number → st₁.exclusives.get? i = st.exclusives.get? i
  actors : ∀ i : ActorId, spared .actor i.number → st₁.actors.get? i = st.actors.get? i
  registries : ∀ i : RegistryId, spared .registry i.number → st₁.registries.get? i = st.registries.get? i
  cells : ∀ i : CellId, spared .cell i.number → st₁.cells.get? i = st.cells.get? i
  schedulers : ∀ s, Option.Rel (Scheduler.Gains fun t => ¬ spared .task t.number) (st.schedulers.get? s)
    (st₁.schedulers.get? s)
  size : ∀ kind, st.size kind ≤ st₁.size kind
  running : st₁.running = st.running

namespace State.Avoids

variable {st st₁ st₂ : State V C} {spared : Kind → Nat → Prop}

theorem refl (st : State V C) : Avoids spared st st where
  tasks _ _ := rfl
  frames _ _ := rfl
  resources _ _ := rfl
  exclusives _ _ := rfl
  actors _ _ := rfl
  registries _ _ := rfl
  cells _ _ := rfl
  schedulers s := by
    cases st.schedulers.get? s with
    | none => exact .none
    | some scheduler => exact .some (.refl scheduler)
  size _ := Nat.le_refl _
  running := rfl

theorem trans (first : Avoids spared st st₁) (second : Avoids spared st₁ st₂) : Avoids spared st st₂ where
  tasks i apart := (second.tasks i apart).trans (first.tasks i apart)
  frames i apart := (second.frames i apart).trans (first.frames i apart)
  resources i apart := (second.resources i apart).trans (first.resources i apart)
  exclusives i apart := (second.exclusives i apart).trans (first.exclusives i apart)
  actors i apart := (second.actors i apart).trans (first.actors i apart)
  registries i apart := (second.registries i apart).trans (first.registries i apart)
  cells i apart := (second.cells i apart).trans (first.cells i apart)
  schedulers s := by
    have early := first.schedulers s
    have late := second.schedulers s
    revert early late
    generalize st.schedulers.get? s = x, st₁.schedulers.get? s = y, st₂.schedulers.get? s = z
    intro early late
    cases early with
    | none => exact late
    | some gains =>
      cases late with
      | some gains' => exact .some (gains.trans gains')
  size kind := Nat.le_trans (first.size kind) (second.size kind)
  running := second.running.trans first.running

theorem ne_of_spared {kind : Kind} {i j : Id kind} (mine : ¬ spared kind i.number)
    (apart : spared kind j.number) : j ≠ i := by
  rintro rfl
  exact mine apart

theorem modifyTask (st : State V C) {t : TaskId} (mine : ¬ spared .task t.number) (f : Task V → Task V) :
    Avoids spared st (st.modifyTask t f) :=
  { Avoids.refl st with
    tasks := fun _ apart => st.tasks.get?_modify_ne f (ne_of_spared mine apart)
    size := fun kind => Nat.le_of_eq (congrFun (size_modifyTask ..) kind).symm }

theorem modifyFrame (st : State V C) {f : FrameId} (mine : ¬ spared .frame f.number)
    (change : Frame V (Body V C) → Frame V (Body V C)) : Avoids spared st (st.modifyFrame f change) :=
  { Avoids.refl st with
    frames := fun _ apart => st.frames.get?_modify_ne change (ne_of_spared mine apart)
    size := fun kind => Nat.le_of_eq (congrFun (size_modifyFrame ..) kind).symm }

theorem modifyResource (st : State V C) {r : ResourceId} (mine : ¬ spared .resource r.number)
    (f : Resource → Resource) : Avoids spared st (st.modifyResource r f) :=
  { Avoids.refl st with
    resources := fun _ apart => st.resources.get?_modify_ne f (ne_of_spared mine apart)
    size := fun kind => Nat.le_of_eq (congrFun (size_modifyResource ..) kind).symm }

theorem modifyExclusive (st : State V C) {x : ExclusiveId} (mine : ¬ spared .exclusive x.number)
    (f : Exclusive V → Exclusive V) : Avoids spared st (st.modifyExclusive x f) :=
  { Avoids.refl st with
    exclusives := fun _ apart => st.exclusives.get?_modify_ne f (ne_of_spared mine apart)
    size := fun kind => Nat.le_of_eq (congrFun (size_modifyExclusive ..) kind).symm }

theorem modifyRegistry (st : State V C) {g : RegistryId} (mine : ¬ spared .registry g.number)
    (f : Registry (Native V C) → Registry (Native V C)) : Avoids spared st (st.modifyRegistry g f) :=
  { Avoids.refl st with
    registries := fun _ apart => st.registries.get?_modify_ne f (ne_of_spared mine apart)
    size := fun kind => Nat.le_of_eq (congrFun (size_modifyRegistry ..) kind).symm }

theorem modifyCell (st : State V C) {i : CellId} (mine : ¬ spared .cell i.number) (f : C → C) :
    Avoids spared st { st with cells := st.cells.modify i f } :=
  { Avoids.refl st with
    cells := fun _ apart => st.cells.get?_modify_ne f (ne_of_spared mine apart)
    size := fun kind => Nat.le_of_eq (congrFun (size_modifyCell ..) kind).symm }

theorem modifyScheduler (st : State V C) (s : SchedulerId) {f : Scheduler → Scheduler}
    (gains : ∀ scheduler : Scheduler, scheduler.Gains (fun t => ¬ spared .task t.number) (f scheduler)) :
    Avoids spared st (st.modifyScheduler s f) :=
  { Avoids.refl st with
    schedulers := by
      intro u
      rw [get?_modifyScheduler]
      split
      · next here =>
        rw [here]
        cases st.schedulers.get? s with
        | none => exact .none
        | some scheduler => exact .some (gains scheduler)
      · exact (Avoids.refl st).schedulers u
    size := fun kind => Nat.le_of_eq (congrFun (size_modifyScheduler ..) kind).symm }

theorem addTask (st : State V C) (task : Task V) (mine : ¬ spared .task (st.tasks.size + 1)) :
    Avoids spared st { st with tasks := st.tasks.add task } :=
  { Avoids.refl st with
    tasks := fun _ apart => st.tasks.get?_add task (ne_of_spared mine apart)
    size := by intro kind; cases kind <;> simp [State.size] }

theorem addFrame (st : State V C) (frame : Frame V (Body V C)) (mine : ¬ spared .frame (st.frames.size + 1)) :
    Avoids spared st { st with frames := st.frames.add frame } :=
  { Avoids.refl st with
    frames := fun _ apart => st.frames.get?_add frame (ne_of_spared mine apart)
    size := by intro kind; cases kind <;> simp [State.size] }

theorem addResource (st : State V C) (resource : Resource) (mine : ¬ spared .resource (st.resources.size + 1)) :
    Avoids spared st { st with resources := st.resources.add resource } :=
  { Avoids.refl st with
    resources := fun _ apart => st.resources.get?_add resource (ne_of_spared mine apart)
    size := by intro kind; cases kind <;> simp [State.size] }

theorem addExclusive (st : State V C) (x : Exclusive V) (mine : ¬ spared .exclusive (st.exclusives.size + 1)) :
    Avoids spared st { st with exclusives := st.exclusives.add x } :=
  { Avoids.refl st with
    exclusives := fun _ apart => st.exclusives.get?_add x (ne_of_spared mine apart)
    size := by intro kind; cases kind <;> simp [State.size] }

theorem addActor (st : State V C) (actor : Actor (Handler V C)) (mine : ¬ spared .actor (st.actors.size + 1)) :
    Avoids spared st { st with actors := st.actors.add actor } :=
  { Avoids.refl st with
    actors := fun _ apart => st.actors.get?_add actor (ne_of_spared mine apart)
    size := by intro kind; cases kind <;> simp [State.size] }

theorem addRegistry (st : State V C) (registry : Registry (Native V C))
    (mine : ¬ spared .registry (st.registries.size + 1)) :
    Avoids spared st { st with registries := st.registries.add registry } :=
  { Avoids.refl st with
    registries := fun _ apart => st.registries.get?_add registry (ne_of_spared mine apart)
    size := by intro kind; cases kind <;> simp [State.size] }

theorem addCell (st : State V C) (content : C) (mine : ¬ spared .cell (st.cells.size + 1)) :
    Avoids spared st { st with cells := st.cells.add content } :=
  { Avoids.refl st with
    cells := fun _ apart => st.cells.get?_add content (ne_of_spared mine apart)
    size := by intro kind; cases kind <;> simp [State.size] }

end State.Avoids

namespace Likeness

variable [Inhabited V] (L : Likeness V C)

/-- Things of a kind that are alike. -/
def Tables {kind : Kind} {α α' : Type} (alike : α → α' → Prop) (table : Table kind α) (table' : Table kind α') :
    Prop := ∀ i i' : Id kind, L.id i i' → Option.Rel alike (table.get? i) (table'.get? i')

structure Mirrors (st st' : State V C) : Prop where
  tasks : L.Tables L.Tasks st.tasks st'.tasks
  frames : L.Tables L.Frames st.frames st'.frames
  resources : L.Tables L.Resources st.resources st'.resources
  exclusives : L.Tables L.Exclusives st.exclusives st'.exclusives
  actors : L.Tables L.Actors st.actors st'.actors
  schedulers : L.Tables L.Schedulers st.schedulers st'.schedulers
  registries : L.Tables L.Registries st.registries st'.registries
  cells : L.Tables L.content st.cells st'.cells
  level : ∀ kind, L.level kind (st.size kind) (st'.size kind)
  running : st.running = st'.running

/-- What an operation comes to in both runs. -/
structure Moves (st st' st₁ st₁' : State V C) : Prop where
  mirrors : L.Mirrors st₁ st₁'
  avoids : st.Avoids (fun kind n => ¬ L.holds kind n) st₁
  rooted : st.Rooted → st₁.Rooted
  rooted' : st'.Rooted → st₁'.Rooted

variable {L} {st st' st₁ st₁' st₂ st₂' : State V C}

namespace Tables

variable {kind : Kind} {α α' : Type} {alike : α → α' → Prop} {table : Table kind α} {table' : Table kind α'}
  {i i' : Id kind} {a : α} {a' : α'}

theorem get (tables : L.Tables alike table table') (same : L.id i i') (found : table.get? i = some a)
    (found' : table'.get? i' = some a') : alike a a' := related_of_some (tables i i' same) found found'

theorem modify (tables : L.Tables alike table table') (same : L.id i i') {f : α → α} {f' : α' → α'}
    (changes : ∀ a a', table.get? i = some a → table'.get? i' = some a' → alike a a' → alike (f a) (f' a')) :
    L.Tables alike (table.modify i f) (table'.modify i' f') := by
  intro j j' also
  rw [Table.get?_modify, Table.get?_modify]
  by_cases here : j = i
  · rw [if_pos here, if_pos ((L.same_iff also same).1 here)]
    have related := tables i i' same
    cases found : table.get? i with
    | none =>
      rw [found] at related
      cases found' : table'.get? i' with
      | none => exact .none
      | some a' =>
        rw [found'] at related
        cases related
    | some a =>
      obtain ⟨a', found', like⟩ := exists_of_related related found
      rw [found']
      exact .some (changes a a' found found' like)
  · rw [if_neg here, if_neg fun there => here ((L.same_iff also same).2 there)]
    exact tables j j' also

theorem add (tables : L.Tables alike table table') (new : L.id table.next table'.next) (like : alike a a') :
    L.Tables alike (table.add a) (table'.add a') := by
  intro j j' also
  rw [Table.get?_add_eq, Table.get?_add_eq]
  by_cases here : j = table.next
  · rw [if_pos here, if_pos ((L.same_iff also new).1 here)]
    exact .some like
  · rw [if_neg here, if_neg fun there => here ((L.same_iff also new).2 there)]
    exact tables j j' also

end Tables

/-! ## Sequences of operations -/

theorem Mirrors.moves (mirrors : L.Mirrors st st') : L.Moves st st' st st' := 
  ⟨mirrors, .refl st, fun before => before, fun before => before⟩

theorem Moves.trans (first : L.Moves st st' st₁ st₁') (second : L.Moves st₁ st₁' st₂ st₂') :
    L.Moves st st' st₂ st₂' :=
  ⟨second.mirrors, first.avoids.trans second.avoids, second.rooted ∘ first.rooted,
    second.rooted' ∘ first.rooted'⟩

/-! ## Changes of one thing -/

theorem not_spared {kind : Kind} {n : Nat} (mine : L.holds kind n) : ¬ ¬ L.holds kind n := fun other => other mine

theorem level_congr (level : ∀ kind, L.level kind (st.size kind) (st'.size kind)) (same : st₁.size = st.size)
    (same' : st₁'.size = st'.size) (kind : Kind) : L.level kind (st₁.size kind) (st₁'.size kind) := by
  rw [same, same']
  exact level kind

namespace Mirrors

variable (mirrors : L.Mirrors st st')
include mirrors

theorem modifyTask {t t' : TaskId} (same : L.id t t') {f g : Task V → Task V}
    (changes : ∀ task task', L.Tasks task task' → L.Tasks (f task) (g task')) :
    L.Moves st st' (st.modifyTask t f) (st'.modifyTask t' g) where
  mirrors :=
    { mirrors with
      tasks := mirrors.tasks.modify same fun task task' _ _ => changes task task'
      level := level_congr mirrors.level (State.size_modifyTask ..) (State.size_modifyTask ..) }
  avoids := .modifyTask st (not_spared (L.held same nofun nofun)) f
  rooted before := before.of_frames rfl
  rooted' before := before.of_frames rfl

theorem modifyFrame {f f' : FrameId} (same : L.id f f')
    {change change' : Frame V (Body V C) → Frame V (Body V C)}
    (changes : ∀ frame frame', L.Frames frame frame' → L.Frames (change frame) (change' frame'))
    (rooted : st.Rooted → (st.modifyFrame f change).Rooted)
    (rooted' : st'.Rooted → (st'.modifyFrame f' change').Rooted) :
    L.Moves st st' (st.modifyFrame f change) (st'.modifyFrame f' change') where
  mirrors :=
    { mirrors with
      frames := mirrors.frames.modify same fun frame frame' _ _ => changes frame frame'
      level := level_congr mirrors.level (State.size_modifyFrame ..) (State.size_modifyFrame ..) }
  avoids := .modifyFrame st (not_spared (L.held same nofun nofun)) change
  rooted := rooted
  rooted' := rooted'

theorem modifyResource {r r' : ResourceId} (same : L.id r r') {f g : Resource → Resource}
    (changes : ∀ resource resource', st.resources.get? r = some resource →
      st'.resources.get? r' = some resource' → L.Resources resource resource' →
      L.Resources (f resource) (g resource')) :
    L.Moves st st' (st.modifyResource r f) (st'.modifyResource r' g) where
  mirrors :=
    { mirrors with
      resources := mirrors.resources.modify same changes
      level := level_congr mirrors.level (State.size_modifyResource ..) (State.size_modifyResource ..) }
  avoids := .modifyResource st (not_spared (L.held same nofun nofun)) f
  rooted before := before.of_frames rfl
  rooted' before := before.of_frames rfl

theorem modifyExclusive {x x' : ExclusiveId} (same : L.id x x') {f f' : Exclusive V → Exclusive V}
    (changes : ∀ x x', L.Exclusives x x' → L.Exclusives (f x) (f' x')) :
    L.Moves st st' (st.modifyExclusive x f) (st'.modifyExclusive x' f') where
  mirrors :=
    { mirrors with
      exclusives := mirrors.exclusives.modify same fun x x' _ _ => changes x x'
      level := level_congr mirrors.level (State.size_modifyExclusive ..) (State.size_modifyExclusive ..) }
  avoids := .modifyExclusive st (not_spared (L.held same nofun nofun)) f
  rooted before := before.of_frames rfl
  rooted' before := before.of_frames rfl

theorem modifyRegistry {g g' : RegistryId} (same : L.id g g') (own : L.holds .registry g.number)
    {f f' : Registry (Native V C) → Registry (Native V C)}
    (changes : ∀ registry registry', st.registries.get? g = some registry →
      st'.registries.get? g' = some registry' → L.Registries registry registry' →
      L.Registries (f registry) (f' registry')) :
    L.Moves st st' (st.modifyRegistry g f) (st'.modifyRegistry g' f') where
  mirrors :=
    { mirrors with
      registries := mirrors.registries.modify same changes
      level := level_congr mirrors.level (State.size_modifyRegistry ..) (State.size_modifyRegistry ..) }
  avoids := .modifyRegistry st (not_spared own) f
  rooted before := before.of_frames rfl
  rooted' before := before.of_frames rfl

theorem modifyCell {i i' : CellId} (same : L.id i i') {f f' : C → C}
    (changes : ∀ x x', L.content x x' → L.content (f x) (f' x')) :
    L.Moves st st' { st with cells := st.cells.modify i f } { st' with cells := st'.cells.modify i' f' } where
  mirrors :=
    { mirrors with
      cells := mirrors.cells.modify same fun x x' _ _ => changes x x'
      level := level_congr mirrors.level (State.size_modifyCell ..) (State.size_modifyCell ..) }
  avoids := .modifyCell st (not_spared (L.held same nofun nofun)) f
  rooted before := before.of_frames rfl
  rooted' before := before.of_frames rfl

theorem modifyScheduler {s s' : SchedulerId} (same : L.id s s') {f f' : Scheduler → Scheduler}
    (changes : ∀ scheduler scheduler', L.Schedulers scheduler scheduler' →
      L.Schedulers (f scheduler) (f' scheduler'))
    (gains : ∀ scheduler : Scheduler, scheduler.Gains (fun t => ¬ ¬ L.holds .task t.number) (f scheduler)) :
    L.Moves st st' (st.modifyScheduler s f) (st'.modifyScheduler s' f') where
  mirrors :=
    { mirrors with
      schedulers := mirrors.schedulers.modify same fun scheduler scheduler' _ _ => changes scheduler scheduler'
      level := level_congr mirrors.level (State.size_modifyScheduler ..) (State.size_modifyScheduler ..) }
  avoids := .modifyScheduler st s gains
  rooted before := before.of_frames rfl
  rooted' before := before.of_frames rfl

/-! ## What others do -/

omit mirrors in
theorem gained {may may' : TaskId → Prop} {a a' b b' : Scheduler} (alike : L.Schedulers a a') (gains : a.Gains may b)
    (gains' : a'.Gains may' b')
    (queues : ∀ l l' new new', L.queue l l' → (∀ t ∈ new, may t) → (∀ t ∈ new', may' t) →
      L.queue (l ++ new) (l' ++ new')) : L.Schedulers b b' := by
  obtain ⟨new, line, foreign⟩ := gains.ready
  obtain ⟨new', line', foreign'⟩ := gains'.ready
  constructor
  · rw [gains.settings, gains'.settings, alike.settings]
  · rw [gains.isShutDown, gains'.isShutDown, alike.isShutDown]
  · rw [line, line']
    exact queues _ _ _ _ alike.ready foreign foreign'

/-- States stay alike if nothing in question was touched in either run. -/
theorem transfer {spared spared' : Kind → Nat → Prop} (avoids : st.Avoids spared st₁)
    (avoids' : st'.Avoids spared' st₁')
    (covered : ∀ {kind : Kind} {i i' : Id kind}, L.id i i' → spared kind i.number ∧ spared' kind i'.number)
    (queues : ∀ l l' new new', L.queue l l' → (∀ t ∈ new, ¬ spared .task t.number) →
      (∀ t ∈ new', ¬ spared' .task t.number) → L.queue (l ++ new) (l' ++ new'))
    (level : ∀ kind, L.level kind (st₁.size kind) (st₁'.size kind)) : L.Mirrors st₁ st₁' where
  tasks i i' same := by
    rw [avoids.tasks i (covered same).1, avoids'.tasks i' (covered same).2]
    exact mirrors.tasks i i' same
  frames i i' same := by
    rw [avoids.frames i (covered same).1, avoids'.frames i' (covered same).2]
    exact mirrors.frames i i' same
  resources i i' same := by
    rw [avoids.resources i (covered same).1, avoids'.resources i' (covered same).2]
    exact mirrors.resources i i' same
  exclusives i i' same := by
    rw [avoids.exclusives i (covered same).1, avoids'.exclusives i' (covered same).2]
    exact mirrors.exclusives i i' same
  actors i i' same := by
    rw [avoids.actors i (covered same).1, avoids'.actors i' (covered same).2]
    exact mirrors.actors i i' same
  schedulers s s' same := by
    have related := mirrors.schedulers s s' same
    have gains := avoids.schedulers s
    have gains' := avoids'.schedulers s'
    revert related gains gains'
    generalize st.schedulers.get? s = a, st'.schedulers.get? s' = a', st₁.schedulers.get? s = b,
      st₁'.schedulers.get? s' = b'
    intro related gains gains'
    cases related with
    | none =>
      cases gains
      cases gains'
      exact .none
    | some alike =>
      cases gains with
      | some gains =>
        cases gains' with
        | some gains' => exact .some (gained alike gains gains' queues)
  registries i i' same := by
    rw [avoids.registries i (covered same).1, avoids'.registries i' (covered same).2]
    exact mirrors.registries i i' same
  cells i i' same := by
    rw [avoids.cells i (covered same).1, avoids'.cells i' (covered same).2]
    exact mirrors.cells i i' same
  level := level
  running := by rw [avoids.running, avoids'.running, mirrors.running]

/-! ## New things -/

theorem level_add {kind : Kind} (mine : L.holds kind (st.size kind + 1))
    (grown : ∀ k, st₁.size k = if k = kind then st.size k + 1 else st.size k)
    (grown' : ∀ k, st₁'.size k = if k = kind then st'.size k + 1 else st'.size k) (k : Kind) :
    L.level k (st₁.size k) (st₁'.size k) := by
  rw [grown, grown']
  split
  · next here =>
    subst here
    exact (L.grows (mirrors.level k) mine).2
  · exact mirrors.level k

theorem next {kind : Kind} (mine : L.holds kind (st.size kind + 1)) :
    L.id (⟨st.size kind + 1⟩ : Id kind) ⟨st'.size kind + 1⟩ := (L.grows (mirrors.level kind) mine).1

theorem addTask {a b : Task V} (mine : L.holds .task (st.tasks.size + 1)) (like : L.Tasks a b) :
    L.Moves st st' { st with tasks := st.tasks.add a } { st' with tasks := st'.tasks.add b } where
  mirrors :=
    { mirrors with
      tasks := mirrors.tasks.add (mirrors.next mine) like
      level := mirrors.level_add mine (by intro kind; cases kind <;> simp [State.size])
        (by intro kind; cases kind <;> simp [State.size]) }
  avoids := .addTask st a (not_spared mine)
  rooted before := before.of_frames rfl
  rooted' before := before.of_frames rfl

theorem addFrame {frame frame' : Frame V (Body V C)} (mine : L.holds .frame (st.frames.size + 1))
    (like : L.Frames frame frame') (rootless : frame'.caller = none) :
    L.Moves st st' { st with frames := st.frames.add frame } { st' with frames := st'.frames.add frame' } where
  mirrors :=
    { mirrors with
      frames := mirrors.frames.add (mirrors.next mine) like
      level := mirrors.level_add mine (by intro kind; cases kind <;> simp [State.size])
        (by intro kind; cases kind <;> simp [State.size]) }
  avoids := .addFrame st frame (not_spared mine)
  rooted before := before.addFrame (by
    have callers := isSome_of_related like.caller
    rwa [rootless, Option.isSome_none, Option.isSome_eq_false_iff, Option.isNone_iff_eq_none] at callers)
  rooted' before := before.addFrame rootless

theorem addResource {a b : Resource} (mine : L.holds .resource (st.resources.size + 1)) (like : L.Resources a b) :
    L.Moves st st' { st with resources := st.resources.add a } { st' with resources := st'.resources.add b } where
  mirrors :=
    { mirrors with
      resources := mirrors.resources.add (mirrors.next mine) like
      level := mirrors.level_add mine (by intro kind; cases kind <;> simp [State.size])
        (by intro kind; cases kind <;> simp [State.size]) }
  avoids := .addResource st a (not_spared mine)
  rooted before := before.of_frames rfl
  rooted' before := before.of_frames rfl

theorem addExclusive {a b : Exclusive V} (mine : L.holds .exclusive (st.exclusives.size + 1))
    (like : L.Exclusives a b) :
    L.Moves st st' { st with exclusives := st.exclusives.add a }
      { st' with exclusives := st'.exclusives.add b } where
  mirrors :=
    { mirrors with
      exclusives := mirrors.exclusives.add (mirrors.next mine) like
      level := mirrors.level_add mine (by intro kind; cases kind <;> simp [State.size])
        (by intro kind; cases kind <;> simp [State.size]) }
  avoids := .addExclusive st a (not_spared mine)
  rooted before := before.of_frames rfl
  rooted' before := before.of_frames rfl

theorem addActor {a b : Actor (Handler V C)} (mine : L.holds .actor (st.actors.size + 1)) (like : L.Actors a b) :
    L.Moves st st' { st with actors := st.actors.add a } { st' with actors := st'.actors.add b } where
  mirrors :=
    { mirrors with
      actors := mirrors.actors.add (mirrors.next mine) like
      level := mirrors.level_add mine (by intro kind; cases kind <;> simp [State.size])
        (by intro kind; cases kind <;> simp [State.size]) }
  avoids := .addActor st a (not_spared mine)
  rooted before := before.of_frames rfl
  rooted' before := before.of_frames rfl

theorem addRegistry {registry registry' : Registry (Native V C)}
    (mine : L.holds .registry (st.registries.size + 1)) (like : L.Registries registry registry') :
    L.Moves st st' { st with registries := st.registries.add registry }
      { st' with registries := st'.registries.add registry' } where
  mirrors :=
    { mirrors with
      registries := mirrors.registries.add (mirrors.next mine) like
      level := mirrors.level_add mine (by intro kind; cases kind <;> simp [State.size])
        (by intro kind; cases kind <;> simp [State.size]) }
  avoids := .addRegistry st registry (not_spared mine)
  rooted before := before.of_frames rfl
  rooted' before := before.of_frames rfl

theorem addCell {x x' : C} (mine : L.holds .cell (st.cells.size + 1)) (like : L.content x x') :
    L.Moves st st' { st with cells := st.cells.add x } { st' with cells := st'.cells.add x' } where
  mirrors :=
    { mirrors with
      cells := mirrors.cells.add (mirrors.next mine) like
      level := mirrors.level_add mine (by intro kind; cases kind <;> simp [State.size])
        (by intro kind; cases kind <;> simp [State.size]) }
  avoids := .addCell st x (not_spared mine)
  rooted before := before.of_frames rfl
  rooted' before := before.of_frames rfl

end Mirrors

end Likeness

end Tasking
