import Mathlib.Tactic.IntervalCases
import Tasking.Proofs.Apart.Abreast

/-! # Independent groups do not influence each other

A host runs its program and drives the scheduler, while others spawn, start and wake tasks of their own on the
same scheduler, in between the host's steps and at any time (`Division.Joint`).  The others' code may name
nothing of ours, and our code nothing of theirs.

Whatever the others do, it is for our group as if they were not there (`Division.Joint.like_alone`): after every
step there is a moment of the run without them at which the state is the same as far as our things go, up to
their numbers, and until which the same frames were resumed in the same order with the same values and errors.
The numbers keep their order.
-/

namespace Tasking

variable {V C : Type}

/-- There is nothing but one scheduler without workers, and registries. -/
structure State.Bare (st : State V C) : Prop where
  tasks : st.tasks = .empty
  frames : st.frames = .empty
  resources : st.resources = .empty
  exclusives : st.exclusives = .empty
  actors : st.actors = .empty
  cells : st.cells = .empty
  scheduler : ∃ settings g, st.schedulers = Table.empty.add (.new settings g 0)

theorem filterMap_range_succ {α : Type} (f : Nat → Option α) (n : Nat) :
    (List.range (n + 1)).filterMap f = (List.range n).filterMap f ++ (f n).toList := by
  rw [List.range_succ, List.filterMap_append]
  cases last : f n <;> simp [last]

theorem forall₂_toList {α β : Type} {alike : α → β → Prop} {x : Option α} {y : Option β}
    (related : Option.Rel alike x y) : List.Forall₂ alike x.toList y.toList := by
  cases related with
  | none => exact .nil
  | some same => exact .cons same .nil

variable [Inhabited V]

/-- Whoever has answered is at an end. -/
theorem Config.step_of_answer {c : Config V C} {a : Answer V} (answered : c.answer? = some a) :
    c.step = .ok c := by
  obtain ⟨st, focus, stack⟩ := c
  unfold answer? at answered
  split at answered
  · next here there =>
    simp only at here there
    subst here there
    rfl
  · cases answered

theorem Config.after_of_answer {c : Config V C} {a : Answer V} (answered : c.answer? = some a) (n : Nat) :
    c.after n = c := by
  induction n with
  | zero => rfl
  | succ n inductionHypothesis => rw [after, inductionHypothesis, step_of_answer answered]

/-- A thread whose program answers before anything goes wrong goes on for ever. -/
theorem Config.goes_on {c : Config V C} {n : Nat} (early : ∀ i < n, (c.after i).step.isOk = true)
    (answered : (c.after n).answer?.isSome = true) (i : Nat) : (c.after i).step.isOk = true := by
  cases Nat.lt_or_ge i n with
  | inl less => exact early i less
  | inr more =>
    obtain ⟨a, answer⟩ := Option.isSome_iff_exists.1 answered
    obtain ⟨k, rfl⟩ := Nat.exists_eq_add_of_le more
    rw [c.after_add, after_of_answer answer, step_of_answer answer]
    rfl

/-- What the first steps of a thread resume frames with. -/
def Config.resumes (c : Config V C) (n : Nat) : List (Resumed V) :=
  (List.range n).filterMap fun i => (c.after i).agent.resumption? (c.after i).state

namespace Division

/-- A step of the whole.  The first thread is that of our host; the others act for the others.  Whoever creates
things has them; the host's thread acts for the others while it is away on a task of theirs.  The label is what
the step resumes a frame with. -/
inductive Step (d : Division) (k : Matching V C) : Crew V C → Option (Resumed V) → Crew V C → Prop where
  | host {st : State V C} {a : Agent V C} {others : List (Agent V C)} {config : Config V C}
      (known : a.KnowsCaller st) (step : (a.config st).step = .ok config)
      (created : ∀ kind n, st.size kind < n → n ≤ config.state.size kind →
        d.party kind n = if d.isAway a then .theirs else .ours) :
      Step d k ⟨st, a :: others⟩ (a.resumption? st) ⟨config.state, config.agent :: others⟩
  | other {st : State V C} {a b : Agent V C} {before after : List (Agent V C)} {config : Config V C}
      (known : b.KnowsCaller st) (step : (b.config st).step = .ok config)
      (created : ∀ kind n, st.size kind < n → n ≤ config.state.size kind → d.party kind n = .theirs) :
      Step d k ⟨st, a :: before ++ b :: after⟩ (b.resumption? st)
        ⟨config.state, a :: before ++ config.agent :: after⟩
  /-- The others begin some calls. -/
  | call {st : State V C} {agents : List (Agent V C)} {q : Program V C}
      (alike : (d.theirs k).Programs false q q) :
      Step d k ⟨st, agents⟩ none ⟨st, agents ++ [⟨.code q, []⟩]⟩

/-- A run of the whole, from the beginning of a host's program. -/
structure Joint (d : Division) (k : Matching V C) (start : State V C) (p : Program V C) where
  length : Nat
  crew : Nat → Crew V C
  resumed : Nat → Option (Resumed V)
  starts : crew 0 = ⟨start, [⟨.code p, []⟩]⟩
  steps : ∀ i < length, d.Step k (crew i) (resumed i) (crew (i + 1))

/-- The whole, and the run without the others, at moments that belong together. -/
structure Beside (d : Division) (m k : Matching V C) (s : SchedulerId) (c : Crew V C) (alone : Config V C) :
    Prop where
  agrees : d.Agrees m k s c.state alone.state
  threads : ∃ a others, c.agents = a :: others ∧ d.Paired m k a alone.agent ∧
    ∀ b ∈ others, (d.theirs k).Inside false true (fun _ _ _ _ => False) b.focus b.stack b.focus b.stack

variable {d : Division} {m k : Matching V C} {s : SchedulerId} {c c' : Crew V C} {alone next : Config V C}
  {label : Option (Resumed V)}

/-! ## What is resumed for whom -/

theorem filter_of_ours {label' : Option (Resumed V)} (alike : Option.Rel (d.ours m).Resumes label label') :
    label.filter (fun r => d.isOurs r.task) = label := by
  cases alike with
  | none => rfl
  | some resumes =>
    rw [Option.filter_some, if_pos]
    simpa [isOurs] using resumes.task.1

theorem filter_of_theirs (alike : Option.Rel (d.theirs k).Resumes label label) :
    label.filter (fun r => d.isOurs r.task) = none := by
  cases label with
  | none => rfl
  | some r =>
    cases alike with
    | some resumes =>
      have theirs : d.party .task r.task.number = .theirs := (d.theirs k).held resumes.task nofun nofun
      rw [Option.filter_some, if_neg]
      simp [isOurs, theirs]

/-! ## Steps -/

section

variable {st st₁ : State V C} {a : Agent V C}
  (created : ∀ kind n, st.size kind < n → n ≤ st₁.size kind → d.party kind n = if d.isAway a then .theirs else .ours)
include created

theorem fresh_ours (here : d.isAway a = false) : (d.ours m).Fresh st st₁ := by
  intro kind n more less
  change d.party kind n = .ours
  simpa [here] using created kind n more less

theorem fresh_theirs (away : d.isAway a = true) : (d.theirs k).Fresh st st₁ := by
  intro kind n more less
  change d.party kind n = .theirs
  simpa [away] using created kind n more less

end

/-- A step of the whole is for the run without the others nothing, or a step that resumes the like. -/
theorem Beside.step (beside : d.Beside m k s c alone) (step : d.Step k c label c') (goesOn : alone.step = .ok next) :
    d.Beside m k s c' alone ∧ label.filter (fun r => d.isOurs r.task) = none ∨
      d.Beside m k s c' next ∧ Option.Rel (d.ours m).Resumes (label.filter fun r => d.isOurs r.task)
        (alone.agent.resumption? alone.state) := by
  obtain ⟨agrees, first, others, agents, paired, foreign⟩ := beside
  cases step with
  | @host st a rest config known step created =>
    obtain ⟨rfl, rfl⟩ := List.cons.inj agents
    cases paired with
    | hosts alike =>
      have resumes := alike.resumption agrees.ours
      by_cases taking : ∃ q n nexts, a.focus = .drain q n nexts
      · obtain ⟨focus, stack⟩ := a
        obtain ⟨q, n, nexts, rfl⟩ := taking
        cases agrees.takes_up alike step goesOn with
        | inl away => exact .inl ⟨⟨away.1, _, _, rfl, away.2, foreign⟩, rfl⟩
        | inr both =>
          rw [filter_of_ours resumes]
          exact .inr ⟨⟨both.1, _, _, rfl, both.2, foreign⟩, resumes⟩
      · have busy : ∀ q n nexts, a.focus ≠ .drain q n nexts := fun q n nexts here => taking ⟨q, n, nexts, here⟩
        have fresh : (d.ours m).Fresh st config.state := fresh_ours created (not_isAway alike)
        obtain ⟨agrees', goes⟩ := agrees.own_step alike busy known step goesOn fresh
        rw [filter_of_ours resumes]
        cases goes.thread with
        | inl still => exact .inr ⟨⟨agrees', _, _, rfl, .hosts still, foreign⟩, resumes⟩
        | inr rest => exact rest.elim
    | runs alike =>
      have resumes := alike.resumption agrees.ours
      have fresh : (d.ours m).Fresh st config.state := fresh_ours created (not_isAway alike)
      obtain ⟨agrees', goes⟩ := agrees.own_step alike alike.busy known step goesOn fresh
      rw [filter_of_ours resumes]
      cases goes.thread with
      | inl still => exact .inr ⟨⟨agrees', _, _, rfl, .runs still, foreign⟩, resumes⟩
      | inr rest => exact .inr ⟨⟨agrees', _, _, rfl, .hosts rest, foreign⟩, resumes⟩
    | @away focus stack busy alike =>
      have fresh : (d.theirs k).Fresh st config.state := fresh_theirs created (isAway_of_inside busy)
      obtain ⟨agrees', goes⟩ := agrees.foreign_step busy known step fresh
      refine .inl ⟨⟨agrees', _, _, rfl, ?_, foreign⟩, filter_of_theirs (busy.resumption agrees.theirs)⟩
      cases goes.thread with
      | inl still => exact .away still alike
      | inr rest =>
        obtain ⟨rfl, rfl⟩ := rest
        exact .hosts alike
  | @other st a b before after config known step created =>
    obtain ⟨rfl, rfl⟩ := List.cons.inj agents
    have busy := foreign b (by simp)
    obtain ⟨agrees', goes⟩ := agrees.foreign_step busy known step created
    refine .inl ⟨⟨agrees', _, _, rfl, paired, ?_⟩, filter_of_theirs (busy.resumption agrees.theirs)⟩
    intro other member
    cases List.mem_append.1 member with
    | inl early => exact foreign other (by simp [early])
    | inr late =>
      cases List.mem_cons.1 late with
      | inl here => exact here ▸ goes.thread.resolve_right fun rest => rest
      | inr later => exact foreign other (by simp [later])
  | @call st agents' q alike =>
    refine .inl ⟨⟨agrees, first, others ++ [⟨.code q, []⟩], ?_, paired, ?_⟩, rfl⟩
    · exact congrArg (· ++ [(⟨.code q, []⟩ : Agent V C)]) agents
    · intro other member
      cases List.mem_append.1 member with
      | inl early => exact foreign other early
      | inr late =>
        rw [List.mem_singleton.1 late]
        exact .code alike (.nil rfl)

/-! ## Beginnings -/

/-- As long as there is nothing of theirs, things have the numbers that they would have anyway. -/
theorem tables_ours {kind : Kind} {α : Type} {table : Table kind α} {alike : α → α → Prop}
    (none' : ∀ n, 0 < n → n ≤ table.size → d.party kind n ≠ .theirs)
    (same : ∀ i a, table.get? i = some a → alike a a) : (d.ours m).Tables alike table table := by
  rintro i i' ⟨own, number⟩
  by_cases used : 0 < i.number ∧ i.number ≤ table.size
  · have itself : i' = i := by
      have rank := d.rank_of_none fun n more less => none' n more (Nat.le_trans less used.2)
      exact congrArg Id.mk (number.trans rank)
    rw [itself]
    cases found : table.get? i with
    | none => exact .none
    | some a => exact .some (same i a found)
  · have missing : table.get? i = none := by
      rw [← Option.not_isSome_iff_eq_none, table.isSome_get?_iff]
      exact used
    have missing' : table.get? i' = none := by
      rw [← Option.not_isSome_iff_eq_none, table.isSome_get?_iff, number]
      rintro ⟨more, less⟩
      cases Nat.eq_zero_or_pos i.number with
      | inl zero => simp [zero, rank] at more
      | inr positive =>
        have above : table.size < i.number := Nat.lt_of_not_le fun within => used ⟨positive, within⟩
        have behind := d.rank_lt own above
        rw [d.rank_of_none none'] at behind
        omega
    rw [missing, missing']
    exact .none

theorem tables_theirs {kind : Kind} {α : Type} {table : Table kind α} {alike : α → α → Prop}
    (same : ∀ i a, table.get? i = some a → alike a a) : (d.theirs k).Tables alike table table := by
  rintro _ i ⟨_, rfl⟩
  cases found : table.get? i with
  | none => exact .none
  | some a => exact .some (same i a found)

section Bare

variable {start : State V C} (bare : start.Bare)
include bare

omit [Inhabited V] in
theorem scheduler_bare {s : SchedulerId} {scheduler : Scheduler} (found : start.schedulers.get? s = some scheduler) :
    s = ⟨1⟩ ∧ ∃ settings g, scheduler = .new settings g 0 := by
  obtain ⟨settings, g, schedulers⟩ := bare.scheduler
  rw [schedulers, Table.get?_add_eq, Table.get?_empty] at found
  split at found
  · next here => exact ⟨here, settings, g, (Option.some.inj found).symm⟩
  · cases found

omit [Inhabited V] in
theorem enrolled_bare : start.Enrolled ⟨1⟩ where
  home found := by simp [bare.tasks] at found
  listed found := by simp [bare.tasks] at found
  known := by
    obtain ⟨settings, g, schedulers⟩ := bare.scheduler
    refine ⟨.new settings g 0, by rw [schedulers]; exact Table.get?_add_new .empty _, ?_⟩
    rw [State.tally, bare.tasks]
    rfl
  only known := by
    obtain ⟨scheduler, found⟩ := Option.isSome_iff_exists.1 known
    exact (scheduler_bare bare found).1

omit [Inhabited V] in
theorem rooted_bare : start.Rooted := by
  have nowhere : ∀ f, start.caller f = none := fun f => by simp [State.caller, bare.frames]
  constructor
  · intro f cycle
    obtain ⟨g, link, _⟩ := Relation.TransGen.head'_iff.1 cycle
    simp [nowhere] at link
  · intro f g link
    simp [nowhere] at link

/-- In the beginning everything is shared. -/
theorem agrees_bare
    (shared : ∀ kind n, 0 < n → n ≤ start.size kind → d.party kind n = .shared)
    (natives : ∀ g registry, start.registries.get? g = some registry →
      (d.ours m).Registries registry registry ∧ (d.theirs k).Registries registry registry) :
    d.Agrees m k ⟨1⟩ start start := by
  have none' : ∀ kind n, 0 < n → n ≤ start.size kind → d.party kind n ≠ .theirs := fun kind n more less => by
    simp [shared kind n more less]
  refine ⟨?_, ?_, enrolled_bare bare, enrolled_bare bare, rooted_bare bare, rooted_bare bare⟩
  · exact {
      tasks := tables_ours (none' .task) fun i a found => by simp [bare.tasks] at found
      frames := tables_ours (none' .frame) fun i a found => by simp [bare.frames] at found
      resources := tables_ours (none' .resource) fun i a found => by simp [bare.resources] at found
      exclusives := tables_ours (none' .exclusive) fun i a found => by simp [bare.exclusives] at found
      actors := tables_ours (none' .actor) fun i a found => by simp [bare.actors] at found
      schedulers := tables_ours (none' .scheduler) fun i a found => by
        obtain ⟨_, settings, g, rfl⟩ := scheduler_bare bare found
        exact ⟨rfl, rfl, .nil⟩
      registries := tables_ours (none' .registry) fun i a found => (natives i a found).1
      cells := tables_ours (none' .cell) fun i a found => by simp [bare.cells] at found
      level := fun kind => (d.rank_of_none (none' kind)).symm
      running := rfl }
  · exact {
      tasks := tables_theirs fun i a found => by simp [bare.tasks] at found
      frames := tables_theirs fun i a found => by simp [bare.frames] at found
      resources := tables_theirs fun i a found => by simp [bare.resources] at found
      exclusives := tables_theirs fun i a found => by simp [bare.exclusives] at found
      actors := tables_theirs fun i a found => by simp [bare.actors] at found
      schedulers := tables_theirs fun i a found => ⟨rfl, rfl, trivial⟩
      registries := tables_theirs fun i a found => (natives i a found).2
      cells := tables_theirs fun i a found => by simp [bare.cells] at found
      level := fun kind => rfl
      running := rfl }

end Bare

/-! ## Runs -/

namespace Joint

variable {start : State V C} {p : Program V C}

/-- What the first steps of the whole resume our frames with. -/
def resumes (joint : d.Joint k start p) (n : Nat) : List (Resumed V) :=
  ((List.range n).filterMap joint.resumed).filter fun r => d.isOurs r.task

/-- The answer of the host's program, once it is there. -/
def answer? (joint : d.Joint k start p) (n : Nat) : Option (Answer V) :=
  (joint.crew n).agents.head?.bind fun a => (a.config (joint.crew n).state).answer?

theorem resumes_succ (joint : d.Joint k start p) (n : Nat) :
    joint.resumes (n + 1) = joint.resumes n ++ ((joint.resumed n).filter fun r => d.isOurs r.task).toList := by
  rw [resumes, filterMap_range_succ, List.filter_append, ← resumes, Option.toList_filter]

/-- At every moment the whole is beside a moment of the run without the others. -/
theorem beside (bare : start.Bare) (shared : ∀ kind n, 0 < n → n ≤ start.size kind → d.party kind n = .shared)
    (natives : ∀ g registry, start.registries.get? g = some registry →
      (d.ours m).Registries registry registry ∧ (d.theirs k).Registries registry registry)
    (alike : (d.ours m).Programs true p p) (alone : ∀ i, ((Config.start start p).after i).step.isOk = true)
    (joint : d.Joint k start p) {n : Nat} (bound : n ≤ joint.length) :
    ∃ i, d.Beside m k ⟨1⟩ (joint.crew n) ((Config.start start p).after i) ∧
      List.Forall₂ (d.ours m).Resumes (joint.resumes n) ((Config.start start p).resumes i) := by
  induction n with
  | zero =>
    refine ⟨0, ⟨?_, ?_⟩, .nil⟩
    · rw [joint.starts]
      exact agrees_bare bare shared natives
    · rw [joint.starts]
      exact ⟨_, [], rfl, .hosts (.code alike (.nil rfl)), by simp⟩
  | succ n inductionHypothesis =>
    obtain ⟨i, beside, same⟩ := inductionHypothesis (Nat.le_of_succ_le bound)
    rw [joint.resumes_succ]
    cases beside.step (joint.steps n bound) (Config.step_after (alone i)) with
    | inl waits =>
      refine ⟨i, waits.1, ?_⟩
      rw [waits.2, Option.toList_none, List.append_nil]
      exact same
    | inr goes =>
      refine ⟨i + 1, goes.1, ?_⟩
      rw [Config.resumes, filterMap_range_succ]
      exact List.rel_append same (forall₂_toList goes.2)

/-- Independent groups do not influence each other. -/
theorem like_alone (bare : start.Bare)
    (shared : ∀ kind n, 0 < n → n ≤ start.size kind → d.party kind n = .shared)
    (natives : ∀ g registry, start.registries.get? g = some registry →
      (d.ours m).Registries registry registry ∧ (d.theirs k).Registries registry registry)
    (alike : (d.ours m).Programs true p p) (alone : ∀ i, ((Config.start start p).after i).step.isOk = true)
    (joint : d.Joint k start p) {n : Nat} (bound : n ≤ joint.length) :
    (∀ kind, StrictMonoOn (d.rank kind) { i | d.party kind i ≠ .theirs }) ∧
    ∃ i, (d.ours m).Mirrors (joint.crew n).state ((Config.start start p).after i).state ∧
      List.Forall₂ (d.ours m).Resumes (joint.resumes n) ((Config.start start p).resumes i) ∧
      ∀ answer, joint.answer? n = some answer →
        ∃ answer', ((Config.start start p).after i).answer? = some answer' ∧ (d.ours m).Answers answer answer' := by
  refine ⟨fun kind i _ j own less => d.rank_lt own less, ?_⟩
  obtain ⟨i, beside, same⟩ := joint.beside bare shared natives alike alone bound
  obtain ⟨agrees, first, others, agents, paired, _⟩ := beside
  refine ⟨i, agrees.ours, same, fun answer answered => ?_⟩
  rw [answer?, agents, List.head?_cons, Option.bind_some] at answered
  cases paired with
  | hosts alike => exact (alike.answer answered _).2
  | runs alike => cases (alike.answer answered start).1
  | away foreign _ => cases (foreign.answer answered start).1

/-! ### One thread of the others -/

/-- A host's thread and one of the others', with the state between them. -/
structure Pairing (V C : Type) where
  state : State V C
  host : Agent V C
  guest : Agent V C

namespace Pairing

/-- The thread whose turn it is. -/
def turn (w : Pairing V C) (guest : Bool) : Agent V C := if guest then w.guest else w.host

/-- Whose turn it is makes a step; a fault ends them. -/
def step (w : Pairing V C) (guest : Bool) : Pairing V C :=
  match ((w.turn guest).config w.state).step with
  | .ok c => if guest then ⟨c.state, w.host, c.agent⟩ else ⟨c.state, c.agent, w.guest⟩
  | .error _ => w

/-- The two after so many steps. -/
def after (w : Pairing V C) (guest : Nat → Bool) : Nat → Pairing V C
  | 0 => w
  | n + 1 => (w.after guest n).step (guest n)

theorem joint_step (w : Pairing V C) (guest : Bool) (known : (w.turn guest).KnowsCaller w.state)
    (ok : ((w.turn guest).config w.state).step.isOk = true)
    (created : ∀ kind, ∀ i ≤ (w.step guest).state.size kind, w.state.size kind < i →
      d.party kind i = if guest || d.isAway w.host then .theirs else .ours) :
    d.Step k ⟨w.state, [w.host, w.guest]⟩ ((w.turn guest).resumption? w.state)
      ⟨(w.step guest).state, [(w.step guest).host, (w.step guest).guest]⟩ := by
  unfold step at created ⊢
  cases made : ((w.turn guest).config w.state).step with
  | error _ => simp [made, Except.isOk, Except.toBool] at ok
  | ok config =>
    rw [made] at created
    cases guest with
    | true =>
      have theirs := fun kind i more less => created kind i less more
      exact @Step.other _ _ _ d k w.state w.host w.guest [] [] config known made theirs
    | false =>
      have whose := fun kind i more less => created kind i less more
      exact @Step.host _ _ _ d k w.state w.host [w.guest] config known made whose

end Pairing

/-- The run of the whole in which one thread of the others takes turns with the host's. -/
def ofPairing {q : Program V C} (alike : (d.theirs k).Programs false q q) (guest : Nat → Bool) (length : Nat)
    (known : ∀ n < length,
      let w := (Pairing.mk start ⟨.code p, []⟩ ⟨.code q, []⟩).after guest n
      (w.turn (guest n)).KnowsCaller w.state)
    (ok : ∀ n < length,
      let w := (Pairing.mk start ⟨.code p, []⟩ ⟨.code q, []⟩).after guest n
      ((w.turn (guest n)).config w.state).step.isOk = true)
    (created : ∀ kind, ∀ n < length,
      let w := (Pairing.mk start ⟨.code p, []⟩ ⟨.code q, []⟩).after guest n
      ∀ i ≤ (w.step (guest n)).state.size kind, w.state.size kind < i →
        d.party kind i = if guest n || d.isAway w.host then .theirs else .ours) :
    d.Joint k start p where
  length := length + 1
  crew
    | 0 => ⟨start, [⟨.code p, []⟩]⟩
    | n + 1 =>
      let w := (Pairing.mk start ⟨.code p, []⟩ ⟨.code q, []⟩).after guest n
      ⟨w.state, [w.host, w.guest]⟩
  resumed
    | 0 => none
    | n + 1 =>
      let w := (Pairing.mk start ⟨.code p, []⟩ ⟨.code q, []⟩).after guest n
      (w.turn (guest n)).resumption? w.state
  starts := rfl
  steps
    | 0, _ => @Step.call _ _ _ d k start [⟨.code p, []⟩] q alike
    | n + 1, bound =>
      have bound := Nat.lt_of_succ_lt_succ bound
      Pairing.joint_step _ (guest n) (known n bound) (ok n bound) fun kind => created kind n bound

/-! ### A visit -/

/-- One scheduler without workers, and its registry. -/
def opening : State Unit Unit :=
  { State.initial 1 with
    schedulers := Table.empty.add (.new .manual ⟨1⟩ 0)
    registries := Table.empty.add .new }

/-- A host has a task that takes a resource, and drives the scheduler. -/
def visited : Program Unit Unit :=
  .ask (.newResource none) fun r =>
  .newFrame "ours" (fun context _ _ => .ask (.tryAcquire r context.task) fun _ => .answer (.done ())) fun f =>
  .ask (.spawn ⟨1⟩ f) fun
  | .error _ => .answer .suspended
  | .ok t => .ask (.start t) fun _ => .drive ⟨1⟩ fun _ => .answer (.done ())

/-- Others have such a task on the same scheduler. -/
def visitors : Program Unit Unit :=
  .ask (.newResource none) fun r =>
  .newFrame "theirs" (fun context _ _ => .ask (.tryAcquire r context.task) fun _ => .answer (.done ())) fun f =>
  .ask (.spawn ⟨1⟩ f) fun
  | .error _ => .answer .suspended
  | .ok t => .ask (.start t) fun _ => .answer (.done ())

/-- The others come first. -/
def visit : Division where
  party
    | .scheduler, _ | .registry, _ => .shared
    | _, n => if n = 1 then .theirs else .ours
  shares {kind n} shared := by cases kind <;> grind

/-- All values stand for one another. -/
def plain : Matching Unit Unit := ⟨fun _ _ => True, fun _ _ => True, trivial⟩

theorem visited_alike : (visit.ours plain).Programs true visited visited := by
  have here : (visit.ours plain).id (⟨1⟩ : SchedulerId) ⟨1⟩ := ⟨by decide, by decide⟩
  refine .ask (.newResource none) fun r r' same => ?_
  refine .newFrame (fun c c' _ _ _ _ contexts _ _ => ?_) fun f f' named => ?_
  · exact .ask (.tryAcquire same contexts.task) fun _ _ _ => .answer (.done trivial)
  · refine .ask (.spawn here named) fun reply reply' spawned => ?_
    cases spawned with
    | error _ => exact .answer .suspended
    | ok t => exact .ask (.start t) fun _ _ _ => .drive here fun _ _ => .answer (.done trivial)

theorem visitors_alike : (visit.theirs plain).Programs false visitors visitors := by
  have here : (visit.theirs plain).id (⟨1⟩ : SchedulerId) ⟨1⟩ := ⟨by decide, rfl⟩
  refine .ask (.newResource none) fun r r' same => ?_
  refine .newFrame (fun c c' _ _ _ _ contexts _ _ => ?_) fun f f' named => ?_
  · exact .ask (.tryAcquire same contexts.task) fun _ _ _ => .answer (.done trivial)
  · refine .ask (.spawn here named) fun reply reply' spawned => ?_
    cases spawned with
    | error _ => exact .answer .suspended
    | ok t => exact .ask (.start t) fun _ _ _ => .answer (.done trivial)

def visitRun : visit.Joint plain opening visited :=
  ofPairing visitors_alike (fun n => n < 4) 18 (by intro n bound; interval_cases n <;> trivial)
    (by decide +kernel) (by intro kind; cases kind <;> decide +kernel)

theorem visit_like_alone :
    visitRun.answer? 19 = some (.done ()) ∧ (visitRun.resumes 19).map (·.task) = [⟨2⟩] ∧
    ∃ i, (visit.ours plain).Mirrors (visitRun.crew 19).state ((Config.start opening visited).after i).state ∧
      List.Forall₂ (visit.ours plain).Resumes (visitRun.resumes 19) ((Config.start opening visited).resumes i) ∧
      ((Config.start opening visited).after i).answer? = some (.done ()) := by
  have bare : opening.Bare := ⟨rfl, rfl, rfl, rfl, rfl, rfl, .manual, ⟨1⟩, rfl⟩
  have shared : ∀ kind n, 0 < n → n ≤ opening.size kind → visit.party kind n = .shared := by
    intro kind n more less
    cases kind with
    | scheduler | registry => rfl
    | task | frame | resource | exclusive | actor | cell => exact absurd (Nat.lt_of_lt_of_le more less) (by decide)
  have natives : ∀ g registry, opening.registries.get? g = some registry →
      (visit.ours plain).Registries registry registry ∧ (visit.theirs plain).Registries registry registry := by
    intro g registry found
    have new : registry = .new := by
      simp only [opening, Table.get?_add_eq, Table.get?_empty] at found
      split at found
      · exact (Option.some.inj found).symm
      · cases found
    rw [new]
    exact ⟨.some ⟨rfl, rfl, fun _ => by simp [Registry.Tables.empty], rfl⟩,
      .some ⟨rfl, rfl, fun _ => by simp [Registry.Tables.empty], rfl⟩⟩
  have answered : visitRun.answer? 19 = some (.done ()) := by rfl
  obtain ⟨_, i, mirrors, resumes, answers⟩ := like_alone bare shared natives visited_alike
    (Config.goes_on (show ∀ i < 10, ((Config.start opening visited).after i).step.isOk = true by decide +kernel)
      (by decide +kernel)) visitRun (show 19 ≤ visitRun.length by decide)
  obtain ⟨answer, found, alike⟩ := answers _ answered
  refine ⟨answered, by decide +kernel, i, mirrors, resumes, ?_⟩
  cases alike
  exact found

end Joint

end Division

end Tasking
