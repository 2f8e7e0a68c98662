import Tasking.Proofs.Apart.Groups

/-! # The host's thread, with the others and without

While a host drives the scheduler, its thread runs our tasks and those of the others.  So beside the run without
the others it is in step with it, or away on a task of theirs (`Division.Paired`).  It is shown here what a step
of one of the others' threads comes to (`Agrees.foreign_step`), a step of the host's thread on our behalf
(`Agrees.own_step`), and a step that takes up a task (`Agrees.takes_up`).
-/

namespace Tasking

variable {V C : Type} [Inhabited V]

namespace Likeness

variable {L : Likeness V C} {drives ends : Bool}
  {Rest : Focus V C → List (Activation V C) → Focus V C → List (Activation V C) → Prop}
  {st st' : State V C} {focus focus' : Focus V C} {stack stack' : List (Activation V C)} {s s' : SchedulerId}

/-! ## Threads -/

/-- Threads that run the program of a host, and no task at the moment. -/
def Hosts (L : Likeness V C) : Focus V C → List (Activation V C) → Focus V C → List (Activation V C) → Prop :=
  L.Inside true true fun _ _ _ _ => False

/-- Threads that run a task and then go on with the program of a host. -/
def Runs (L : Likeness V C) : Focus V C → List (Activation V C) → Focus V C → List (Activation V C) → Prop :=
  L.Inside false false L.Hosts

theorem Waits.runs (waits : L.Waits drives ends Rest stack stack') :
    ends = true ∧ stack.filterMap Activation.run? = [] ∨
      ∃ run rest t', stack.filterMap Activation.run? = run :: rest ∧ L.id run.1 t' := by
  induction stack generalizing stack' with
  | nil =>
    cases waits with
    | nil host => exact .inl ⟨host, rfl⟩
  | cons x stack inductionHypothesis =>
    cases waits with
    | call _ rest | opened _ rest => exact inductionHypothesis rest
    | cancel task _ _ _ _ => exact .inr ⟨_, _, _, rfl, task⟩
    | frame task _ _ => exact .inr ⟨_, _, _, rfl, task⟩

/-- The innermost run on a thread is that of a task in question. -/
theorem Inside.runs (inside : L.Inside drives ends Rest focus stack focus' stack') :
    ends = true ∧ Agent.runs ⟨focus, stack⟩ = [] ∨
      ∃ run rest t', Agent.runs ⟨focus, stack⟩ = run :: rest ∧ L.id run.1 t' := by
  cases inside with
  | trampoline task _ => exact .inr ⟨_, _, _, rfl, task⟩
  | code _ rest | drain _ _ _ rest | waiting _ _ rest => exact rest.runs

/-- Programs of hosts that are alike come to like answers. -/
theorem Inside.answer (inside : L.Inside drives ends Rest focus stack focus' stack') {answer : Answer V}
    (answered : (⟨st, focus, stack⟩ : Config V C).answer? = some answer) (st' : State V C) :
    ends = true ∧ ∃ answer', (⟨st', focus', stack'⟩ : Config V C).answer? = some answer' ∧
      L.Answers answer answer' := by
  cases inside with
  | trampoline | drain | waiting => cases answered
  | code alike rest =>
    cases alike with
    | answer answers =>
      cases rest with
      | nil host => exact ⟨host, _, rfl, Option.some.inj answered ▸ answers⟩
      | call | opened | cancel | frame => cases answered
    | ask | newFrame | newActor | register | callNative | unwind | drive | within | await => cases answered

/-- Threads that are alike ask for nothing that concerns a scheduler as a whole. -/
theorem Inside.simple (inside : L.Inside drives ends Rest focus stack focus' stack') (st st' : State V C) :
    (∀ request next, focus = .code (.ask request next) → st.Simple request) ∧
      ∀ request next, focus' = .code (.ask request next) → st'.Simple request := by
  constructor
  · rintro request next rfl
    cases inside with
    | code alike _ =>
      cases alike with
      | ask asks _ => cases asks <;> trivial
  · rintro request next rfl
    cases inside with
    | code alike _ =>
      cases alike with
      | ask asks _ => cases asks <;> trivial

/-- Only the program of a host takes up tasks. -/
theorem Inside.busy (inside : L.Inside false ends Rest focus stack focus' stack') (s : SchedulerId) (n : Nat)
    (next : Nat → Program V C) : focus ≠ .drain s n next := by
  rintro rfl
  cases inside with
  | drain may _ _ _ => cases may

/-! ## Taking up a task -/

omit [Inhabited V] in
/-- A thread takes up the next ready task, if there is one. -/
theorem runReady_cases {after otherwise : Focus V C} {w : Worker} {config : Config V C}
    (done : (⟨st, focus, stack⟩ : Config V C).runReady s w after otherwise = .ok config) :
    ∃ scheduler, st.schedulers.get? s = some scheduler ∧
      (scheduler.ready.toList = [] ∧ config = ⟨st, otherwise, stack⟩ ∨
        ∃ t rest st₁, scheduler.ready.toList = t :: rest.toList ∧ (st.dequeued t s rest).beginRun t w = .ok st₁ ∧
          config = ⟨st₁, .trampoline t after, stack⟩) := by
  simp only [Config.runReady, State.takeReady, bind_ok, State.scheduler_ok] at done
  obtain ⟨⟨next, st₂⟩, ⟨scheduler, found, taken⟩, done⟩ := done
  refine ⟨scheduler, found, ?_⟩
  cases popped : scheduler.ready.pop? with
  | none =>
    rw [popped] at taken
    obtain ⟨rfl, rfl⟩ := Prod.mk.inj (pure_ok.1 taken)
    exact .inl ⟨(Line.pop?_eq_none_iff _).1 popped, (pure_ok.1 done).symm⟩
  | some line =>
    rw [popped] at taken
    obtain ⟨rfl, rfl⟩ := Prod.mk.inj (pure_ok.1 taken)
    simp only [Config.beginRun, Config.tryState, bind_ok, pure_ok] at done
    obtain ⟨_, ⟨st₁, begun, rfl⟩, rfl⟩ := done
    exact .inr ⟨_, _, st₁, Line.toList_of_pop? popped, begun, rfl⟩

namespace Mirrors

variable (mirrors : L.Mirrors st st')
include mirrors

theorem requeue (home : L.id s s') {l r : Line TaskId} (queues : L.queue l.toList r.toList) :
    L.Mirrors (st.modifyScheduler s fun scheduler => { scheduler with ready := l })
      (st'.modifyScheduler s' fun scheduler => { scheduler with ready := r }) :=
  { mirrors with
    schedulers := mirrors.schedulers.modify home fun _ _ _ _ alike => { alike with ready := queues }
    level := level_congr mirrors.level (State.size_modifyScheduler ..) (State.size_modifyScheduler ..) }

/-- In the first run a task leaves the queue that is none of the tasks in question. -/
theorem requeue_left (home : L.id s s') {l : Line TaskId}
    (queues : ∀ scheduler', st'.schedulers.get? s' = some scheduler' → L.queue l.toList scheduler'.ready.toList) :
    L.Mirrors (st.modifyScheduler s fun scheduler => { scheduler with ready := l }) st' :=
  { mirrors with
    schedulers := by
      intro u u' same
      rw [State.get?_modifyScheduler]
      split
      · next here =>
        have there : u' = s' := (L.same_iff same home).1 here
        have related := mirrors.schedulers s s' home
        rw [there]
        cases found : st.schedulers.get? s with
        | none => rwa [found] at related
        | some scheduler =>
          obtain ⟨scheduler', found', alike⟩ := exists_of_related related found
          rw [found']
          exact .some { alike with ready := queues scheduler' found' }
      · exact mirrors.schedulers u u' same
    level := level_congr mirrors.level (State.size_modifyScheduler ..) rfl }

end Mirrors

end Likeness

namespace Division

variable {d : Division} {m k : Matching V C} {st st' st₁ st₁' : State V C} {s s' : SchedulerId}

theorem theirs_requeue (mirrors : (d.theirs k).Mirrors st st) (s : SchedulerId) (rest : Line TaskId) :
    (d.theirs k).Mirrors (st.modifyScheduler s fun scheduler => { scheduler with ready := rest })
      (st.modifyScheduler s fun scheduler => { scheduler with ready := rest }) :=
  { mirrors with
    schedulers := by
      rintro _ u ⟨foreign, rfl⟩
      have related := mirrors.schedulers u u ⟨foreign, rfl⟩
      rw [State.get?_modifyScheduler]
      split
      · next here =>
        rw [← here]
        cases found : st.schedulers.get? u with
        | none => exact Option.Rel.none
        | some scheduler =>
          rw [found] at related
          cases related with
          | some alike =>
            have still : (d.theirs k).Schedulers { scheduler with ready := rest } { scheduler with ready := rest } :=
              ⟨alike.settings, alike.isShutDown, trivial⟩
            exact Option.Rel.some still
      · exact related
    level := fun _ => rfl }

/-! ## States of the whole -/

/-- Our part of the whole is as it is without the others, and the others see what they see. -/
structure Agrees (d : Division) (m k : Matching V C) (s : SchedulerId) (st st' : State V C) : Prop where
  ours : (d.ours m).Mirrors st st'
  theirs : (d.theirs k).Mirrors st st
  enrolled : st.Enrolled s
  enrolled' : st'.Enrolled s
  rooted : st.Rooted
  rooted' : st'.Rooted

namespace Agrees

variable (agrees : d.Agrees m k s st st')
include agrees

theorem foreign (moves : (d.theirs k).Moves st st st₁ st₁) (fresh : (d.theirs k).Fresh st st₁)
    (enrolled : st₁.Enrolled s) : d.Agrees m k s st₁ st' where
  ours := ours_of_theirs agrees.ours moves fresh
  theirs := moves.mirrors
  enrolled := enrolled
  enrolled' := agrees.enrolled'
  rooted := moves.rooted agrees.rooted
  rooted' := agrees.rooted'

theorem own (moves : (d.ours m).Moves st st' st₁ st₁') (enrolled : st₁.Enrolled s) (enrolled' : st₁'.Enrolled s) :
    d.Agrees m k s st₁ st₁' where
  ours := moves.mirrors
  theirs := theirs_of_ours agrees.theirs moves
  enrolled := enrolled
  enrolled' := enrolled'
  rooted := moves.rooted agrees.rooted
  rooted' := moves.rooted' agrees.rooted'

end Agrees

/-- Whether the innermost run on a thread is that of a task of the others. -/
def isAway (d : Division) (a : Agent V C) : Bool :=
  a.runs.head?.any fun run => d.party .task run.1.number = .theirs

/-- The host's thread, and its thread without the others.  It may be away on a task of the others. -/
inductive Paired (d : Division) (m k : Matching V C) (a b : Agent V C) : Prop where
  | hosts (alike : (d.ours m).Hosts a.focus a.stack b.focus b.stack)
  | runs (alike : (d.ours m).Runs a.focus a.stack b.focus b.stack)
  | away {focus : Focus V C} {stack : List (Activation V C)}
      (foreign : (d.theirs k).Inside false false (fun f σ _ _ => f = focus ∧ σ = stack) a.focus a.stack a.focus a.stack)
      (alike : (d.ours m).Hosts focus stack b.focus b.stack)

variable {drives ends : Bool}
  {Rest : Focus V C → List (Activation V C) → Focus V C → List (Activation V C) → Prop} {a b : Agent V C}

theorem not_isAway (inside : (d.ours m).Inside drives ends Rest a.focus a.stack b.focus b.stack) :
    d.isAway a = false := by
  obtain ⟨focus, stack⟩ := a
  cases inside.runs with
  | inl idle => simp [isAway, idle.2]
  | inr busy =>
    obtain ⟨run, rest, t', runs, own⟩ := busy
    simpa [isAway, runs] using own.1

theorem isAway_of_inside (inside : (d.theirs k).Inside drives false Rest a.focus a.stack b.focus b.stack) :
    d.isAway a = true := by
  obtain ⟨focus, stack⟩ := a
  cases inside.runs with
  | inl idle => cases idle.1
  | inr busy =>
    obtain ⟨run, rest, t', runs, foreign⟩ := busy
    have theirs : d.party .task run.1.number = .theirs := (d.theirs k).held foreign nofun nofun
    simp [isAway, runs, theirs]

/-! ## Steps of the whole -/

/-- A step of a thread of the others. -/
theorem Agrees.foreign_step (agrees : d.Agrees m k s st st') {config : Config V C}
    (inside : (d.theirs k).Inside false ends Rest a.focus a.stack a.focus a.stack) (known : a.KnowsCaller st)
    (step : (a.config st).step = .ok config) (fresh : (d.theirs k).Fresh st config.state) :
    d.Agrees m k s config.state st' ∧ (d.theirs k).Goes false ends Rest st st config config := by
  have goes := inside.step agrees.theirs agrees.enrolled agrees.enrolled agrees.rooted inside.busy known step step
    fresh
  have enrolled := Config.enrolled_of_step (c := a.config st) agrees.enrolled (inside.simple st st').1 step
  exact ⟨agrees.foreign goes.moves fresh enrolled, goes⟩

/-- A step of our thread, with and without the others. -/
theorem Agrees.own_step (agrees : d.Agrees m k s st st') {config config' : Config V C}
    (inside : (d.ours m).Inside drives ends Rest a.focus a.stack b.focus b.stack)
    (busy : ∀ q n next, a.focus ≠ .drain q n next) (known : a.KnowsCaller st)
    (step : (a.config st).step = .ok config) (step' : (b.config st').step = .ok config')
    (fresh : (d.ours m).Fresh st config.state) :
    d.Agrees m k s config.state config'.state ∧ (d.ours m).Goes drives ends Rest st st' config config' := by
  have goes := inside.step agrees.ours agrees.enrolled agrees.enrolled' agrees.rooted' busy known step step' fresh
  have enrolled := Config.enrolled_of_step (c := a.config st) agrees.enrolled (inside.simple st st').1 step
  have enrolled' := Config.enrolled_of_step (c := b.config st') agrees.enrolled' (inside.simple st st').2 step'
  exact ⟨agrees.own goes.moves enrolled enrolled', goes⟩

/-- The host's thread takes up a task of ours, or finds that there is none. -/
theorem Agrees.takes_up (agrees : d.Agrees m k s st st') {config config' : Config V C} {q : SchedulerId} {n : Nat}
    {next : Nat → Program V C} {focus : Focus V C} {stack stack' : List (Activation V C)}
    (hosts : (d.ours m).Hosts (.drain q n next) stack focus stack')
    (step : (⟨st, .drain q n next, stack⟩ : Config V C).step = .ok config)
    (step' : (⟨st', focus, stack'⟩ : Config V C).step = .ok config') :
    d.Agrees m k s config.state st' ∧ d.Paired m k config.agent ⟨focus, stack'⟩ ∨
      d.Agrees m k s config.state config'.state ∧ d.Paired m k config.agent config'.agent := by
  have enrolled := Config.enrolled_of_step (c := ⟨st, .drain q n next, stack⟩) agrees.enrolled
    (hosts.simple st st').1 step
  have enrolled' := Config.enrolled_of_step (c := ⟨st', focus, stack'⟩) agrees.enrolled' (hosts.simple st st').2 step'
  cases hosts with
  | @drain _ q' _ n' _ next' _ _ _ home alike rest =>
    obtain ⟨scheduler, found, taken⟩ := Likeness.runReady_cases step
    obtain ⟨scheduler', found', taken'⟩ := Likeness.runReady_cases step'
    have queues : (d.ours m).queue scheduler.ready.toList scheduler'.ready.toList :=
      (agrees.ours.schedulers.get home found found').ready
    cases taken with
    | inl idle =>
      obtain ⟨empty, rfl⟩ := idle
      rw [empty] at queues
      cases taken' with
      | inl idle' =>
        obtain ⟨_, rfl⟩ := idle'
        exact .inr ⟨agrees, .hosts (.code (alike _ _) rest)⟩
      | inr busy' =>
        obtain ⟨t', rest', _, line', _⟩ := busy'
        rw [line'] at queues
        cases queues
    | inr busy =>
      obtain ⟨t, line, st₁, front, begun, rfl⟩ := busy
      rw [front] at queues
      have theirs := theirs_requeue agrees.theirs q line
      by_cases party : d.party .task t.number = .theirs
      · -- The others' task is not in the queue of the run without them.
        have skipped : (d.ours m).queue line.toList scheduler'.ready.toList := by
          have passed : d.isOurs t = false := by simp [isOurs, party]
          change List.Forall₂ _ ((t :: line.toList).filter d.isOurs) _ at queues
          rwa [List.filter_cons_of_neg (by simp [passed])] at queues
        have ours := agrees.ours.requeue_left home (l := line) fun other known =>
          Option.some.inj (found'.symm.trans known) ▸ skipped
        have named : (d.theirs k).id t t := ⟨by simp [party], rfl⟩
        have taken := theirs.dropLink named
        have moves := taken.trans (taken.mirrors.beginRun named begun begun)
        refine .inl ⟨⟨ours_of_theirs ours moves ?_, moves.mirrors, enrolled, agrees.enrolled',
          moves.rooted (agrees.rooted.of_frames rfl), agrees.rooted'⟩, ?_⟩
        · intro kind i more less
          rw [State.size_beginRun begun, State.dequeued, State.dropLink, State.size_modifyTask] at less
          exact absurd (Nat.lt_of_lt_of_le more less) (Nat.lt_irrefl _)
        · exact .away (.trampoline named ⟨rfl, rfl⟩) (.drain rfl home alike rest)
      · change List.Forall₂ _ ((t :: line.toList).filter d.isOurs) _ at queues
        rw [List.filter_cons_of_pos (by simpa [isOurs] using party)] at queues
        cases taken' with
        | inl idle' =>
          rw [idle'.1] at queues
          cases queues
        | inr busy' =>
          obtain ⟨t', line', st₁', front', begun', rfl⟩ := busy'
          rw [front'] at queues
          cases queues with
          | cons named later =>
            have ours := agrees.ours.requeue home (l := line) (r := line') later
            have named : (d.ours m).id t t' := named
            have taken := ours.dropLink named
            have moves := taken.trans (taken.mirrors.beginRun named begun begun')
            refine .inr ⟨⟨moves.mirrors, theirs_of_ours theirs moves, enrolled, enrolled',
              moves.rooted (agrees.rooted.of_frames rfl), moves.rooted' (agrees.rooted'.of_frames rfl)⟩, ?_⟩
            exact .runs (.trampoline named (.drain rfl home alike rest))

end Division

end Tasking
