import Tasking.Proofs.Lookup

/-! # Links

A task sits in at most one queue, a ready queue or a wait queue, and its link says whether it
sits in one.  `State.Lined` is this invariant.  It is what makes it impossible to run a task
that still waits in line for a resource: such a task cannot be put into a ready queue too.

`State.Quiet` says that a change leaves the frames, the resources and the tops of all chains as
they were, takes no task out of its run, and keeps the links in order.  Most of what the runtime
does is quiet.
-/

namespace Tasking.State

variable {V C : Type}

/-- The scheduler of a task, and whether the task sits in a queue. -/
def link (st : State V C) (t : TaskId) : Option (SchedulerId × Bool) :=
  (st.tasks.get? t).map fun task => (task.scheduler, task.linked)

/-- Whoever is in a queue is linked, in no other queue, and there once; whoever is linked is in
    a queue. -/
structure Lined (st : State V C) : Prop where
  ready_linked : ∀ {t s}, t ∈ st.queue s → st.link t = some (s, true)
  ready_nodup : ∀ s, (st.queue s).Nodup
  waiter_linked : ∀ {t r}, t ∈ st.waiters r → ∃ s, st.link t = some (s, true)
  ready_not_waiting : ∀ {t s r}, t ∈ st.queue s → t ∉ st.waiters r
  linked_queued : ∀ {t s}, st.link t = some (s, true) → t ∈ st.queue s ∨ ∃ r, t ∈ st.waiters r
  scheduler_known : ∀ {t s b}, st.link t = some (s, b) → (st.schedulers.get? s).isSome = true

/-- A change that takes no task out of its run, ends none, and keeps the links in order. -/
structure Keeps (st st' : State V C) : Prop where
  running : ∀ {t}, st.life t = some .running → st'.life t = some .running
  ended : ∀ {t life}, life.isTerminal = true → st'.life t = some life → st.life t = some life
  lined : st.Lined → st'.Lined

/-- A task that is done or failed has no frames left. -/
def Ended (st : State V C) : Prop :=
  ∀ {t life}, st.life t = some life → life.isTerminal = true → st.top t = none

/-- A change within the run of a task, which concerns the chain of no other task. -/
structure Within (t : TaskId) (st st' : State V C) : Prop extends Keeps st st' where
  others : ∀ {u}, u ≠ t → st'.top u = st.top u

/-- A change that concerns neither chains nor ownership. -/
structure Quiet (st st' : State V C) : Prop extends Keeps st st' where
  frames : st'.frames = st.frames
  resources : st'.resources = st.resources
  top : ∀ t, st'.top t = st.top t

theorem link_modifyTask (st : State V C) (t u : TaskId) (f : Task V → Task V) :
    (st.modifyTask t f).link u = if u = t then (st.tasks.get? t).map
      fun task => ((f task).scheduler, (f task).linked) else st.link u := by
  unfold link
  rw [get?_modifyTask]
  split
  · rw [Option.map_map]; rfl
  · rfl

/-- Links stay in order when neither queues nor links change. -/
theorem Lined.of_same {st st' : State V C} (lined : st.Lined)
    (waiters : ∀ r, st'.waiters r = st.waiters r) (queue : ∀ s, st'.queue s = st.queue s)
    (known : ∀ s, (st.schedulers.get? s).isSome = true → (st'.schedulers.get? s).isSome = true)
    (link : ∀ t, st'.link t = st.link t) : st'.Lined where
  ready_linked member := (link _).trans (lined.ready_linked (queue _ ▸ member))
  ready_nodup s := queue s ▸ lined.ready_nodup s
  waiter_linked member := by
    rw [link]
    exact lined.waiter_linked (waiters _ ▸ member)
  ready_not_waiting member := by
    rw [waiters]
    exact lined.ready_not_waiting (queue _ ▸ member)
  linked_queued linked := by
    simp only [queue, waiters]
    exact lined.linked_queued (link _ ▸ linked)
  scheduler_known linked := known _ (lined.scheduler_known (link _ ▸ linked))

/-- Changing what a task is queued by not at all. -/
theorem Lined.modifyTask {st : State V C} (lined : st.Lined) (t : TaskId) {f : Task V → Task V}
    (link : ∀ task, ((f task).scheduler, (f task).linked) = (task.scheduler, task.linked)) :
    (st.modifyTask t f).Lined := by
  refine lined.of_same (fun _ => rfl) (fun _ => rfl) (fun _ => id) fun u => ?_
  rw [link_modifyTask]
  split
  · next same => subst same; exact congrArg (Option.map · _) (funext link)
  · rfl

theorem isSome_modifyScheduler (st : State V C) (s : SchedulerId) (f : Scheduler → Scheduler)
    (u : SchedulerId) :
    ((st.modifyScheduler s f).schedulers.get? u).isSome = (st.schedulers.get? u).isSome := by
  rw [get?_modifyScheduler]
  split
  · next same => rw [Option.isSome_map, same]
  · rfl

namespace Keeps

@[refl] theorem refl (st : State V C) : Keeps st st := ⟨id, fun _ => id, id⟩

theorem trans {st st' st'' : State V C} (first : Keeps st st') (second : Keeps st' st'') :
    Keeps st st'' where
  running run := second.running (first.running run)
  ended terminal done := first.ended terminal (second.ended terminal done)
  lined lined := second.lined (first.lined lined)

/-- Changing what has no part in links and lives. -/
theorem of_tasks {st st' : State V C} (life : ∀ t, st'.life t = st.life t)
    (lined : st.Lined → st'.Lined) : Keeps st st' where
  running {t} run := (life t).trans run
  ended {t _} _ done := (life t).symm.trans done
  lined := lined

/-- Changing what a task is queued by not at all, and its life only outside of a run. -/
theorem modifyTask (st : State V C) (t : TaskId) {f : Task V → Task V}
    (link : ∀ task, ((f task).scheduler, (f task).linked) = (task.scheduler, task.linked))
    (life : ∀ task, st.tasks.get? t = some task → (f task).life = task.life ∨
      task.life ≠ .running ∧ (f task).life.isTerminal = false) :
    Keeps st (st.modifyTask t f) where
  running {u} run := by
    rw [life_modifyTask]
    split
    · next same =>
      subst same
      obtain ⟨task, found, live⟩ := Option.map_eq_some_iff.1 run
      rcases life task found with same | ⟨idle, _⟩
      · simp [found, same, live]
      · exact absurd live idle
    · exact run
  ended {u stage} terminal done := by
    rw [life_modifyTask] at done
    split at done
    · next same =>
      subst same
      obtain ⟨task, found, rfl⟩ := Option.map_eq_some_iff.1 done
      rcases life task found with same | ⟨_, open'⟩
      · simp [State.life, found, same]
      · simp [open'] at terminal
    · exact done
  lined lined := lined.modifyTask t link

theorem modifyFrame (st : State V C) (f : FrameId)
    (change : Frame V (Body V C) → Frame V (Body V C)) : Keeps st (st.modifyFrame f change) :=
  .of_tasks (fun _ => rfl) fun lined =>
    lined.of_same (fun _ => rfl) (fun _ => rfl) (fun _ => id) fun _ => rfl

/-- Giving a resource to somebody else is no matter of links. -/
theorem setOwner (st : State V C) (r : ResourceId) (owner : Option TaskId) :
    Keeps st (st.setOwner r owner) :=
  .of_tasks (fun _ => rfl) fun lined =>
    lined.of_same (congrFun (waiters_modifyResource_keep (r := r)
      (f := fun resource => { resource with owner := owner }) fun _ => rfl))
      (fun _ => rfl) (fun _ => id) fun _ => rfl

end Keeps

namespace Within

variable {t : TaskId} {st st' st'' : State V C}

@[refl] theorem refl (st : State V C) : Within t st st := ⟨.refl st, fun _ => rfl⟩

theorem trans (first : Within t st st') (second : Within t st' st'') : Within t st st'' where
  toKeeps := first.toKeeps.trans second.toKeeps
  others other := (second.others other).trans (first.others other)

theorem of_top (keeps : Keeps st st') (top : st'.top = st.top) : Within t st st' :=
  ⟨keeps, fun _ => by rw [top]⟩

theorem modifyTask (st : State V C) (t : TaskId) {f : Task V → Task V}
    (link : ∀ task, ((f task).scheduler, (f task).linked) = (task.scheduler, task.linked))
    (life : ∀ task, (f task).life = task.life) : Within t st (st.modifyTask t f) where
  toKeeps := .modifyTask st t link fun task _ => .inl (life task)
  others {u} other := by
    unfold State.top
    rw [get?_modifyTask, if_neg other]

theorem ended_of_running (within : Within t st st') (run : st.life t = some .running) (ended : st.Ended) :
    st'.Ended := by
  intro u life done terminal
  have before := within.toKeeps.ended terminal done
  rw [within.others, ended before terminal]
  rintro rfl
  obtain rfl : Life.running = life := Option.some.inj (run.symm.trans before)
  simp [Life.isTerminal] at terminal

end Within

theorem Quiet.keepsEnded {st st' : State V C} (quiet : Quiet st st') (ended : st.Ended) :
    st'.Ended := fun {t _} done terminal =>
  (quiet.top t).trans (ended (quiet.toKeeps.ended terminal done) terminal)

theorem Quiet.within {st st' : State V C} (quiet : Quiet st st') {t : TaskId} : Within t st st' :=
  ⟨quiet.toKeeps, fun {u} _ => quiet.top u⟩

namespace Quiet

@[refl] theorem refl (st : State V C) : Quiet st st := ⟨.refl st, rfl, rfl, fun _ => rfl⟩

theorem trans {st st' st'' : State V C} (first : Quiet st st') (second : Quiet st' st'') :
    Quiet st st'' where
  toKeeps := first.toKeeps.trans second.toKeeps
  frames := second.frames.trans first.frames
  resources := second.resources.trans first.resources
  top t := (second.top t).trans (first.top t)

/-- Changes of links and ready queues are quiet if they keep the links in order. -/
theorem of_tasks {st st' : State V C} (frames : st'.frames = st.frames)
    (resources : st'.resources = st.resources) (top : ∀ t, st'.top t = st.top t)
    (life : ∀ t, st'.life t = st.life t) (lined : st.Lined → st'.Lined) : Quiet st st' where
  toKeeps := .of_tasks life lined
  frames := frames
  resources := resources
  top := top

/-- Changing what a task neither stands on nor is queued by is quiet. -/
theorem modifyTask (st : State V C) (t : TaskId) {f : Task V → Task V}
    (top : ∀ task, (f task).top = task.top)
    (link : ∀ task, ((f task).scheduler, (f task).linked) = (task.scheduler, task.linked))
    (life : ∀ task, st.tasks.get? t = some task → (f task).life = task.life ∨
      task.life ≠ .running ∧ (f task).life.isTerminal = false) :
    Quiet st (st.modifyTask t f) where
  toKeeps := .modifyTask st t link life
  frames := rfl
  resources := rfl
  top u := top_modifyTask top u

/-- Changing a scheduler's books is quiet. -/
theorem modifyScheduler (st : State V C) (s : SchedulerId) {f : Scheduler → Scheduler}
    (ready : ∀ scheduler, (f scheduler).ready = scheduler.ready) :
    Quiet st (st.modifyScheduler s f) :=
  of_tasks rfl rfl (fun _ => rfl) (fun _ => rfl) fun lined =>
    lined.of_same (fun _ => rfl) (queue_modifyScheduler ready)
      (fun u known => by rwa [isSome_modifyScheduler]) fun _ => rfl

theorem adjust {st st' : State V C} {s : SchedulerId} {c : Counter} {change : Int}
    (done : st.adjust s c change = .ok st') : Quiet st st' := by
  obtain ⟨scheduler, _, _, rfl⟩ := adjust_ok.1 done
  exact modifyScheduler st s fun _ => ready_withCount _ _ _

end Quiet

/-! ## Ready queues that grow -/

/-- The state in which a task went to the end of its scheduler's ready queue. -/
def enqueued (st : State V C) (t : TaskId) (s : SchedulerId) : State V C :=
  (st.modifyTask t fun task => { task with linked := true }).modifyScheduler s
    fun scheduler => { scheduler with ready := scheduler.ready.push t }

theorem queue_enqueued {st : State V C} {t : TaskId} {s : SchedulerId}
    (known : (st.schedulers.get? s).isSome = true) (u : SchedulerId) :
    (st.enqueued t s).queue u = if u = s then st.queue s ++ [t] else st.queue u := by
  obtain ⟨scheduler, found⟩ := Option.isSome_iff_exists.1 known
  unfold queue enqueued
  rw [get?_modifyScheduler]
  split
  · simp [State.modifyTask, found]
  · rfl

/-- A task without a link may be put into its scheduler's ready queue. -/
theorem Lined.enqueued {st : State V C} {t : TaskId} {s : SchedulerId} (lined : st.Lined)
    (free : st.link t = some (s, false)) : (st.enqueued t s).Lined := by
  have queue := queue_enqueued (t := t) (lined.scheduler_known free)
  have link : ∀ u, (st.enqueued t s).link u = if u = t then some (s, true) else st.link u := by
    intro u
    refine (link_modifyTask st t u _).trans ?_
    split
    · obtain ⟨task, found, equal⟩ := Option.map_eq_some_iff.1 free
      simp [found, (Prod.mk.inj equal).1]
    · rfl
  have notReady : ∀ u, t ∉ st.queue u := fun u member => by
    simpa using free.symm.trans (lined.ready_linked member)
  have notWaiting : ∀ r, t ∉ st.waiters r := fun r member => by
    obtain ⟨_, linked⟩ := lined.waiter_linked member
    simpa using free.symm.trans linked
  constructor
  · intro u s' member
    rw [link]
    rw [queue] at member
    split at member
    · next own =>
      rcases List.mem_append.1 member with old | new
      · rw [if_neg (by rintro rfl; exact notReady s old), own]
        exact lined.ready_linked old
      · rw [if_pos (List.mem_singleton.1 new), own]
    · rw [if_neg (by rintro rfl; exact notReady s' member)]
      exact lined.ready_linked member
  · intro s'
    rw [queue]
    split
    · refine List.nodup_append.2 ⟨lined.ready_nodup s, by simp, ?_⟩
      rintro u member v inNew rfl
      exact notReady s (List.mem_singleton.1 inNew ▸ member)
    · exact lined.ready_nodup s'
  · intro u r member
    rw [link]
    split
    · exact ⟨s, rfl⟩
    · exact lined.waiter_linked (r := r) member
  · intro u s' r member
    rw [queue] at member
    by_cases same : u = t
    · exact same ▸ notWaiting r
    · exact lined.ready_not_waiting (s := s') (by
        split at member
        · next own => exact own ▸ by simpa [same] using member
        · exact member)
  · intro u s' linked
    rw [link] at linked
    rw [queue]
    split at linked
    · next same =>
      obtain rfl : s = s' := by simpa using linked
      exact .inl (by simp [same])
    · refine (lined.linked_queued linked).imp (fun member => ?_) id
      split
      · next own => exact List.mem_append_left _ (own ▸ member)
      · exact member
  · intro u s' b linked
    refine (isSome_modifyScheduler _ s _ s').trans ?_
    rw [link] at linked
    split at linked
    · obtain rfl : s = s' := congrArg Prod.fst (Option.some.inj linked)
      exact lined.scheduler_known free
    · exact lined.scheduler_known linked

/-! ## Wait queues that grow -/

/-- The state in which a task went to the end of a wait queue. -/
def inLine (st : State V C) (t : TaskId) (r : ResourceId) : State V C :=
  (st.modifyTask t fun task => { task with linked := true }).modifyResource r fun resource =>
    { resource with waiters := resource.waiters.push t }

theorem waiters_inLine {st : State V C} {t : TaskId} {r : ResourceId}
    (known : (st.resources.get? r).isSome = true) (q : ResourceId) :
    (st.inLine t r).waiters q = if q = r then st.waiters r ++ [t] else st.waiters q := by
  obtain ⟨resource, found⟩ := Option.isSome_iff_exists.1 known
  unfold waiters inLine
  rw [get?_modifyResource]
  split
  · simp [State.modifyTask, found]
  · rfl

/-- A task without a link may be put into a wait queue. -/
theorem Lined.inLine {st : State V C} {t : TaskId} {s : SchedulerId} {r : ResourceId}
    (lined : st.Lined) (free : st.link t = some (s, false))
    (known : (st.resources.get? r).isSome = true) : (st.inLine t r).Lined := by
  have waiters := waiters_inLine (t := t) known
  have link : ∀ u, (st.inLine t r).link u = if u = t then some (s, true) else st.link u := by
    intro u
    refine (link_modifyTask st t u _).trans ?_
    split
    · obtain ⟨task, found, equal⟩ := Option.map_eq_some_iff.1 free
      simp [found, (Prod.mk.inj equal).1]
    · rfl
  have notReady : ∀ u, t ∉ st.queue u := fun u member => by
    simpa using free.symm.trans (lined.ready_linked member)
  constructor
  · intro u s' member
    rw [link, if_neg (by rintro rfl; exact notReady s' member)]
    exact lined.ready_linked (s := s') member
  · exact lined.ready_nodup
  · intro u q member
    rw [link]
    split
    · exact ⟨s, rfl⟩
    · next other =>
      refine lined.waiter_linked (r := q) ?_
      rw [waiters] at member
      split at member
      · next same => exact same ▸ by simpa [other] using member
      · exact member
  · intro u s' q member
    have other : u ≠ t := by
      rintro rfl
      exact notReady s' member
    rw [waiters]
    split
    · simpa [other] using lined.ready_not_waiting (s := s') (r := r) member
    · exact lined.ready_not_waiting (s := s') member
  · intro u s' linked
    rw [link] at linked
    split at linked
    · next same => exact .inr ⟨r, by simp [waiters, same]⟩
    · refine (lined.linked_queued linked).imp id fun ⟨q, member⟩ => ⟨q, ?_⟩
      rw [waiters]
      split
      · next same => exact List.mem_append_left _ (same ▸ member)
      · exact member
  · intro u s' b linked
    rw [link] at linked
    split at linked
    · obtain rfl : s = s' := congrArg Prod.fst (Option.some.inj linked)
      exact lined.scheduler_known free
    · exact lined.scheduler_known linked

/-! ## Queues that shrink -/

/-- Tasks may be taken out of their queues when their links are dropped. -/
theorem Lined.without {st st' : State V C} (lined : st.Lined) (gone : TaskId → Prop)
    (kept : ∀ {u}, ¬ gone u → st'.link u = st.link u)
    (dropped : ∀ {u}, gone u → st'.link u = (st.link u).map fun link => (link.1, false))
    (queue : ∀ {u s}, u ∈ st'.queue s ↔ u ∈ st.queue s ∧ ¬ gone u)
    (nodup : ∀ s, (st'.queue s).Nodup)
    (waiters : ∀ {u r}, u ∈ st'.waiters r ↔ u ∈ st.waiters r ∧ ¬ gone u)
    (known : ∀ s, (st.schedulers.get? s).isSome = true → (st'.schedulers.get? s).isSome = true) :
    st'.Lined where
  ready_linked member := by
    obtain ⟨old, stays⟩ := queue.1 member
    exact (kept stays).trans (lined.ready_linked old)
  ready_nodup := nodup
  waiter_linked member := by
    obtain ⟨old, stays⟩ := waiters.1 member
    rw [kept stays]
    exact lined.waiter_linked old
  ready_not_waiting member waiting :=
    lined.ready_not_waiting (queue.1 member).1 (waiters.1 waiting).1
  linked_queued {u s} linked := by
    by_cases leaves : gone u
    · rw [dropped leaves] at linked
      obtain ⟨_, _, absurd⟩ := Option.map_eq_some_iff.1 linked
      simp at absurd
    · rw [kept leaves] at linked
      exact (lined.linked_queued linked).imp (fun member => queue.2 ⟨member, leaves⟩)
        fun ⟨r, member⟩ => ⟨r, waiters.2 ⟨member, leaves⟩⟩
  scheduler_known {u s b} linked := by
    by_cases leaves : gone u
    · rw [dropped leaves] at linked
      obtain ⟨link, found, equal⟩ := Option.map_eq_some_iff.1 linked
      obtain ⟨s', b'⟩ := link
      obtain rfl : s' = s := congrArg Prod.fst equal
      exact known _ (lined.scheduler_known found)
    · rw [kept leaves] at linked
      exact known _ (lined.scheduler_known linked)

theorem link_dropLink (st : State V C) (t u : TaskId) :
    (st.dropLink t).link u =
      if u = t then (st.link t).map fun link => (link.1, false) else st.link u := by
  refine (link_modifyTask st t u _).trans ?_
  unfold link
  rw [Option.map_map]
  rfl

theorem link_dropLinks (st : State V C) (ts : List TaskId) (u : TaskId) :
    (st.dropLinks ts).link u =
      if u ∈ ts then (st.link u).map fun link => (link.1, false) else st.link u := by
  induction ts generalizing st with
  | nil => simp [dropLinks]
  | cons t rest inductionHypothesis =>
    rw [dropLinks, inductionHypothesis, link_dropLink]
    by_cases same : u = t
    · subst same
      by_cases later : u ∈ rest <;> simp [later, Function.comp_def]
    · simp [same]

/-- The state in which a resource was handed to a task that left its wait queue. -/
def handed (st : State V C) (t : TaskId) (r : ResourceId) (rest : Line TaskId) : State V C :=
  (st.modifyResource r fun resource => { resource with owner := some t, waiters := rest }).dropLink t

theorem waiters_handed {st : State V C} {t : TaskId} {r : ResourceId} {rest : Line TaskId}
    (known : (st.resources.get? r).isSome = true) (q : ResourceId) :
    (st.handed t r rest).waiters q = if q = r then rest.toList else st.waiters q := by
  obtain ⟨resource, found⟩ := Option.isSome_iff_exists.1 known
  change ((st.modifyResource r fun resource =>
    { resource with owner := some t, waiters := rest }).resources.get? q).elim [] _ = _
  rw [get?_modifyResource]
  split
  · simp [found]
  · rfl

/-- The oldest task of a wait queue may be taken out, if it waits nowhere else. -/
theorem Lined.handed {st : State V C} {t : TaskId} {r : ResourceId} {rest : Line TaskId}
    (lined : st.Lined) (known : (st.resources.get? r).isSome = true)
    (line : st.waiters r = t :: rest.toList) (distinct : (st.waiters r).Nodup)
    (elsewhere : ∀ q, q ≠ r → t ∉ st.waiters q) : (st.handed t r rest).Lined := by
  have waiters := @waiters_handed _ _ st t r rest known
  rw [line, List.nodup_cons] at distinct
  have notReady : ∀ s, t ∉ st.queue s := fun s member =>
    lined.ready_not_waiting (r := r) member (by simp [line])
  refine lined.without (· = t) (fun stays => ?_) (fun leaves => ?_) (fun {u s} => ?_)
    lined.ready_nodup (fun {u q} => ?_) (fun s known => known)
  · exact (link_dropLink _ t _).trans (if_neg stays)
  · exact (link_dropLink _ t _).trans (by subst leaves; exact if_pos rfl)
  · refine ⟨fun member => ⟨member, ?_⟩, And.left⟩
    rintro rfl
    exact notReady s member
  · rw [waiters]
    split
    · next same =>
      subst same
      rw [line, List.mem_cons]
      constructor
      · intro member
        have other : u ≠ t := fun same => distinct.1 (same ▸ member)
        exact ⟨.inr member, other⟩
      · rintro ⟨first | member, other⟩
        · exact absurd first other
        · exact member
    · next other =>
      exact ⟨fun member => ⟨member, fun same => elsewhere q other (same ▸ member)⟩, And.left⟩

/-- The state in which a task was taken out of a ready queue, with the rest left there. -/
def dequeued (st : State V C) (t : TaskId) (s : SchedulerId) (rest : Line TaskId) : State V C :=
  (st.modifyScheduler s fun scheduler => { scheduler with ready := rest }).dropLink t

theorem queue_dequeued {st : State V C} {t : TaskId} {s : SchedulerId} {rest : Line TaskId}
    (known : (st.schedulers.get? s).isSome = true) (u : SchedulerId) :
    (st.dequeued t s rest).queue u = if u = s then rest.toList else st.queue u := by
  obtain ⟨scheduler, found⟩ := Option.isSome_iff_exists.1 known
  change ((st.modifyScheduler s fun scheduler =>
    { scheduler with ready := rest }).schedulers.get? u).elim [] _ = _
  rw [get?_modifyScheduler]
  split
  · simp [found]
  · rfl

theorem link_dequeued (st : State V C) (t u : TaskId) (s : SchedulerId) (rest : Line TaskId) :
    (st.dequeued t s rest).link u =
      if u = t then (st.link t).map fun link => (link.1, false) else st.link u :=
  link_dropLink _ t u

/-- The oldest task of a ready queue may be taken out. -/
theorem Lined.dequeued {st : State V C} {t : TaskId} {s : SchedulerId} {rest : Line TaskId}
    (lined : st.Lined) (known : (st.schedulers.get? s).isSome = true)
    (line : st.queue s = t :: rest.toList) : (st.dequeued t s rest).Lined := by
  have queue := @queue_dequeued _ _ st t s rest known
  have distinct := lined.ready_nodup s
  rw [line, List.nodup_cons] at distinct
  have elsewhere : ∀ {u}, u ≠ s → t ∉ st.queue u := fun {u} other member => by
    have here := lined.ready_linked (t := t) (s := s) (by simp [line])
    rw [lined.ready_linked member] at here
    exact other (congrArg Prod.fst (Option.some.inj here))
  refine lined.without (· = t) (fun stays => ?_) (fun leaves => ?_) (fun {u v} => ?_) (fun v => ?_)
    (fun {u r} => ?_) (fun v known => ?_)
  · exact (link_dequeued ..).trans (if_neg stays)
  · exact (link_dequeued ..).trans (by rw [if_pos leaves, leaves])
  · rw [queue]
    split
    · next same =>
      subst same
      rw [line, List.mem_cons]
      constructor
      · intro member
        have other : u ≠ t := fun same => distinct.1 (same ▸ member)
        exact ⟨.inr member, other⟩
      · rintro ⟨first | member, other⟩
        · exact absurd first other
        · exact member
    · next other =>
      exact ⟨fun member => ⟨member, fun same => elsewhere other (same ▸ member)⟩, And.left⟩
  · rw [queue]
    split
    · exact distinct.2
    · exact lined.ready_nodup v
  · refine ⟨fun member => ⟨member, ?_⟩, And.left⟩
    rintro rfl
    exact lined.ready_not_waiting (t := u) (s := s) (by simp [line]) member
  · exact (isSome_modifyScheduler st s _ v).trans known

theorem takeReady_ok {st st' : State V C} {s : SchedulerId} {next : Option TaskId}
    (done : st.takeReady s = .ok (next, st')) :
    (next = none ∧ st' = st) ∨ ∃ t rest, next = some t ∧
      (st.schedulers.get? s).isSome = true ∧ st.queue s = t :: rest.toList ∧
      st' = st.dequeued t s rest := by
  simp only [takeReady, bind_ok, scheduler_ok] at done
  obtain ⟨scheduler, found, done⟩ := done
  split at done
  · simp only [pure_ok, Prod.mk.injEq] at done
    exact .inl ⟨done.1.symm, done.2.symm⟩
  · next t rest popped =>
    simp only [pure_ok, Prod.mk.injEq] at done
    refine .inr ⟨t, rest, done.1.symm, by simp [found], ?_, done.2.symm⟩
    simp [queue, found, Line.toList_of_pop? popped]

theorem schedule_ok {st st' : State V C} {t : TaskId} (done : st.schedule t = .ok st') :
    ∃ task, st.tasks.get? t = some task ∧ (task.bound.isSome = true ∧ st' = st ∨
      task.bound.isSome = false ∧ task.linked = false ∧ st' = st.enqueued t task.scheduler) := by
  simp only [schedule, claimLink, bind_ok, task_ok] at done
  obtain ⟨task, found, done⟩ := done
  refine ⟨task, found, ?_⟩
  split at done
  · next bound => exact .inl ⟨bound, (pure_ok.1 done).symm⟩
  · next unbound =>
    simp only [bind_ok, task_ok, check_ok, pure_ok] at done
    obtain ⟨_, ⟨task', found', free, rfl⟩, done⟩ := done
    obtain rfl : task = task' := Option.some.inj (found.symm.trans found')
    exact .inr ⟨by simpa using unbound, by simpa using free, done.symm⟩

theorem Quiet.schedule {st st' : State V C} {t : TaskId} (done : st.schedule t = .ok st') :
    Quiet st st' := by
  obtain ⟨task, found, ⟨_, rfl⟩ | ⟨_, free, rfl⟩⟩ := schedule_ok done
  · exact refl st'
  · exact of_tasks rfl rfl
      (top_modifyTask (f := fun task => { task with linked := true }) fun _ => rfl)
      (life_modifyTask_keep (f := fun task => { task with linked := true }) fun _ => rfl)
      fun lined => lined.enqueued (by simp [link, found, free])

/-! ## What is quiet -/

/-- A task that waits no longer counts as one that waits outside no longer, either. -/
theorem finishWait_ok {st st' : State V C} {t : TaskId} (done : st.finishWait t = .ok st') :
    ∃ task, st.tasks.get? t = some task ∧
      (if task.external then
          (st.modifyTask t fun task => { task with waiting := none, external := false }).adjust
            task.scheduler .external (-1) = .ok st'
        else st' = st.modifyTask t fun task => { task with waiting := none, external := false }) := by
  simp only [finishWait, bind_ok, task_ok] at done
  obtain ⟨task, found, done⟩ := done
  refine ⟨task, found, ?_⟩
  split
  · next external => rwa [if_pos external] at done
  · next external =>
    rw [if_neg external] at done
    exact (pure_ok.1 done).symm

namespace Quiet

theorem finishWait {st st' : State V C} {t : TaskId} (done : st.finishWait t = .ok st') :
    Quiet st st' := by
  obtain ⟨task, found, done⟩ := finishWait_ok done
  have forget : Quiet st (st.modifyTask t fun task =>
      { task with waiting := none, external := false }) :=
    modifyTask st t (fun _ => rfl) (fun _ => rfl) fun _ _ => .inl rfl
  split at done
  · exact forget.trans (adjust done)
  · exact done ▸ forget

theorem setLife {st : State V C} {t : TaskId} {life : Life} (idle : st.life t ≠ some .running)
    (more : life.isTerminal = false) : Quiet st (st.setLife t life) := by
  refine modifyTask st t (fun _ => rfl) (fun _ => rfl) fun task found => .inr ⟨fun live => ?_, more⟩
  exact idle (by simp [State.life, found, live])

theorem start {st st' : State V C} {t : TaskId} (done : st.start t = .ok st') : Quiet st st' := by
  simp only [State.start, advance, bind_ok, task_ok, check_ok, pure_ok] at done
  obtain ⟨task, found, _, ⟨_, _, new, rfl⟩, _, counted, scheduled⟩ := done
  refine ((setLife ?_ rfl).trans (adjust counted)).trans (schedule scheduled)
  simp_all [State.life]

theorem ready {st st' : State V C} {t : TaskId} (done : st.ready t = .ok st') : Quiet st st' := by
  simp only [State.ready, bind_ok, task_ok] at done
  obtain ⟨task, found, done⟩ := done
  split at done
  · next parked =>
    simp only [bind_ok] at done
    obtain ⟨_, counted, _, finished, scheduled⟩ := done
    have idle : st.life t ≠ some .running := by simp [State.life, found, parked]
    exact (((setLife idle rfl).trans (adjust counted)).trans (finishWait finished)).trans
      (schedule scheduled)
  · refine .trans ?_ (finishWait done)
    exact modifyTask st t (fun _ => rfl) (fun _ => rfl) fun _ _ => .inl rfl
  · simp at done

theorem readyAll {st st' : State V C} {ts : List TaskId} (done : st.readyAll ts = .ok st') :
    Quiet st st' := by
  induction ts generalizing st with
  | nil => exact pure_ok.1 done ▸ refl st
  | cons t ts inductionHypothesis =>
    simp only [State.readyAll, bind_ok] at done
    obtain ⟨_, first, rest⟩ := done
    exact (ready first).trans (inductionHypothesis rest)

theorem retire {st st' : State V C} {t : TaskId} (done : st.retire t = .ok st') :
    Quiet st st' := by
  simp only [State.retire, bind_ok, task_ok] at done
  obtain ⟨task, found, _, tasks, runnable⟩ := done
  refine .trans ?_ ((adjust tasks).trans (adjust runnable))
  exact modifyTask st t (fun _ => rfl) (fun _ => rfl) fun _ _ => .inl rfl

theorem waitExternal {st st' : State V C} {t : TaskId} (done : st.waitExternal t = .ok st') :
    Quiet st st' := by
  simp only [State.waitExternal, bind_ok, task_ok, check_ok] at done
  obtain ⟨task, found, _, done⟩ := done
  have announce : Quiet st (st.modifyTask t fun task =>
      { task with waiting := some .external, external := true }) :=
    modifyTask st t (fun _ => rfl) (fun _ => rfl) fun _ _ => .inl rfl
  split at done
  · exact pure_ok.1 done ▸ announce
  · exact announce.trans (adjust done)

theorem yield {st st' : State V C} {t : TaskId} (done : st.yield t = .ok st') : Quiet st st' := by
  simp only [State.yield, bind_ok, task_ok, check_ok, pure_ok] at done
  obtain ⟨task, found, _, rfl⟩ := done
  exact modifyTask st t (fun _ => rfl) (fun _ => rfl) fun _ _ => .inl rfl

theorem announceWait (st : State V C) (t : TaskId) (target : WaitTarget) :
    Quiet st (st.announceWait t target) :=
  modifyTask st t (fun _ => rfl) (fun _ => rfl) fun _ _ => .inl rfl

theorem waitFor {st st' : State V C} {t child : TaskId}
    {reply : Except Deadlock (Option (Outcome V))}
    (done : st.waitFor t child = .ok (reply, st')) : Quiet st st' := by
  simp only [State.waitFor, bind_ok, task_ok] at done
  obtain ⟨awaited, _, _, _, done⟩ := done
  split at done
  · rw [pure_ok, Prod.mk.injEq] at done
    exact done.2 ▸ refl st
  · split at done
    · rw [pure_ok, Prod.mk.injEq] at done
      exact done.2 ▸ refl st
    · rw [pure_ok, Prod.mk.injEq] at done
      exact done.2 ▸ (announceWait st t _).trans
        (modifyTask _ child (fun _ => rfl) (fun _ => rfl) fun _ _ => .inl rfl)

theorem enlist (st : State V C) (s : SchedulerId) (t : TaskId) : Quiet st (st.enlist s t) := by
  refine .trans ?_ (modifyScheduler _ s fun _ => rfl)
  exact modifyTask st t (fun _ => rfl) (fun _ => rfl) fun _ _ => .inl rfl

theorem takeReady {st st' : State V C} {s : SchedulerId} {next : Option TaskId}
    (done : st.takeReady s = .ok (next, st')) : Quiet st st' := by
  rcases takeReady_ok done with ⟨_, rfl⟩ | ⟨t, rest, _, known, line, rfl⟩
  · exact refl st'
  have top : ∀ u, (st.dequeued t s rest).top u = st.top u :=
    fun u => top_modifyTask (f := fun task => { task with linked := false }) (fun _ => rfl) u
  have life : ∀ u, (st.dequeued t s rest).life u = st.life u :=
    fun u => life_modifyTask_keep (f := fun task => { task with linked := false }) (fun _ => rfl) u
  exact of_tasks rfl rfl top life fun lined => lined.dequeued known line

theorem dropLinks (st : State V C) (ts : List TaskId) :
    (st.dropLinks ts).frames = st.frames ∧ (st.dropLinks ts).resources = st.resources ∧
      (st.dropLinks ts).schedulers = st.schedulers ∧
      (∀ t, (st.dropLinks ts).top t = st.top t) ∧ ∀ t, (st.dropLinks ts).life t = st.life t := by
  induction ts generalizing st with
  | nil => exact ⟨rfl, rfl, rfl, fun _ => rfl, fun _ => rfl⟩
  | cons t rest inductionHypothesis =>
    obtain ⟨frames, resources, schedulers, top, life⟩ := inductionHypothesis (st.dropLink t)
    refine ⟨frames, resources, schedulers, fun u => (top u).trans ?_, fun u => (life u).trans ?_⟩
    · exact top_modifyTask (f := fun task => { task with linked := false }) (fun _ => rfl) u
    · exact life_modifyTask_keep (f := fun task => { task with linked := false }) (fun _ => rfl) u

theorem stop {st st' : State V C} {s : SchedulerId} (done : st.stop s = .ok st') :
    Quiet st st' := by
  simp only [State.stop, bind_ok, scheduler_ok, pure_ok] at done
  obtain ⟨scheduler, found, rfl⟩ := done
  obtain ⟨frames, resources, schedulers, top, life⟩ := dropLinks
    (st.modifyScheduler s fun s => { s with isShutDown := true, ready := .empty })
    scheduler.ready.toList
  have line : st.queue s = scheduler.ready.toList := by simp [queue, found]
  refine of_tasks frames resources top life fun lined => ?_
  have queue : ∀ u, ((st.modifyScheduler s fun s => { s with isShutDown := true, ready := .empty }).dropLinks
      scheduler.ready.toList).queue u = if u = s then [] else st.queue u := fun u => by
    unfold State.queue
    rw [schedulers, get?_modifyScheduler]
    split
    · simp [found]
    · rfl
  refine lined.without (· ∈ scheduler.ready.toList) (fun stays => ?_) (fun leaves => ?_)
    (fun {u v} => ?_) (fun v => ?_) (fun {u r} => ?_) (fun v known => ?_)
  · exact (link_dropLinks ..).trans (if_neg stays)
  · exact (link_dropLinks ..).trans (if_pos leaves)
  · rw [queue]
    split
    · next same => subst same; simp [line]
    · next other =>
      refine ⟨fun member => ⟨member, fun gone => ?_⟩, And.left⟩
      have here := lined.ready_linked (line ▸ gone : u ∈ st.queue s)
      rw [lined.ready_linked member] at here
      exact other (congrArg Prod.fst (Option.some.inj here))
  · rw [queue]
    split
    · exact List.nodup_nil
    · exact lined.ready_nodup v
  · have same : ∀ q, ((st.modifyScheduler s fun s =>
        { s with isShutDown := true, ready := .empty }).dropLinks
        scheduler.ready.toList).waiters q = st.waiters q := fun q => by
      unfold State.waiters
      rw [resources]
      rfl
    rw [same]
    refine ⟨fun member => ⟨member, fun gone => ?_⟩, And.left⟩
    exact lined.ready_not_waiting (line ▸ gone : u ∈ st.queue s) member
  · rw [schedulers]
    exact (isSome_modifyScheduler st s _ v).trans known

theorem beginRun {st st' : State V C} {t : TaskId} {w : Worker} (done : st.beginRun t w = .ok st') :
    Quiet st st' ∧ st.life t = some .ready ∧ st'.life t = some .running := by
  simp only [State.beginRun, advance, bind_ok, task_ok, check_ok, pure_ok] at done
  obtain ⟨_, ⟨task, found, fit, rfl⟩, rfl⟩ := done
  have ready : st.life t = some .ready := by
    simp only [not_or, not_not] at fit
    simp [State.life, found, fit.1]
  have moved : Quiet st (st.setLife t .running) := setLife (by simp [ready]) rfl
  refine ⟨moved.trans ?_, ready, ?_⟩
  · exact modifyTask _ t (f := fun task => { task with worker := some w }) (fun _ => rfl)
      (fun _ => rfl) fun _ _ => .inl rfl
  · simp [State.life, State.setLife, get?_modifyTask, found]

theorem endRun (st : State V C) (t : TaskId) : Quiet st (st.endRun t) :=
  modifyTask st t (f := fun task => { task with worker := none }) (fun _ => rfl) (fun _ => rfl)
    fun _ _ => .inl rfl

end Quiet

/-! ## The end of a run -/

/-- A change that ends the run of a task, and concerns chains and ownership no further. -/
structure Stops (t : TaskId) (st st' : State V C) : Prop where
  frames : st'.frames = st.frames
  resources : st'.resources = st.resources
  top : ∀ u, st'.top u = st.top u
  live : ∀ {u}, u ≠ t → st.life u = some .running → st'.life u = some .running
  ended : ∀ {u life}, life.isTerminal = true → st'.life u = some life → u = t ∨ st.life u = some life
  lined : st.Lined → st'.Lined

namespace Stops

variable {t : TaskId} {st st' st'' : State V C}

theorem trans (first : Stops t st st') (second : Stops t st' st'') : Stops t st st'' where
  frames := second.frames.trans first.frames
  resources := second.resources.trans first.resources
  top u := (second.top u).trans (first.top u)
  live other run := second.live other (first.live other run)
  ended terminal done := (second.ended terminal done).elim .inl (first.ended terminal)
  lined lined := second.lined (first.lined lined)

theorem trans_quiet (first : Stops t st st') (second : Quiet st' st'') : Stops t st st'' where
  frames := second.frames.trans first.frames
  resources := second.resources.trans first.resources
  top u := (second.top u).trans (first.top u)
  live other run := second.running (first.live other run)
  ended terminal done := first.ended terminal (second.toKeeps.ended terminal done)
  lined lined := second.lined (first.lined lined)

theorem modifyTask (st : State V C) (t : TaskId) {f : Task V → Task V}
    (top : ∀ task, st.tasks.get? t = some task → (f task).top = task.top)
    (link : ∀ task, ((f task).scheduler, (f task).linked) = (task.scheduler, task.linked)) :
    Stops t st (st.modifyTask t f) where
  frames := rfl
  resources := rfl
  top u := by
    unfold State.top
    rw [get?_modifyTask]
    split
    · next same =>
      subst same
      cases found : st.tasks.get? u with
      | none => rfl
      | some task => exact top task found
    · rfl
  live {u} other run := by
    rwa [life_modifyTask, if_neg other]
  ended {u life} _ done := by
    by_cases same : u = t
    · exact .inl same
    · rw [life_modifyTask, if_neg same] at done
      exact .inr done
  lined lined := lined.modifyTask t link

theorem keepsEnded (stops : Stops t st st') (own : ∀ {life}, life.isTerminal = true →
    st'.life t = some life → st'.top t = none) (ended : st.Ended) : st'.Ended := by
  intro u life done terminal
  rcases stops.ended terminal done with rfl | before
  · exact own terminal done
  · exact (stops.top u).trans (ended before terminal)

theorem setLife (st : State V C) (t : TaskId) (life : Life) : Stops t st (st.setLife t life) :=
  modifyTask st t (f := fun task => { task with life := life, notified := false }) (fun _ _ => rfl)
    fun _ => rfl

/-- The run of a task whose top frame suspended is over, but the task is not. -/
theorem park (done : st.park t = .ok st') :
    Stops t st st' ∧ ∀ {life}, life.isTerminal = true → st'.life t ≠ some life := by
  simp only [State.park, bind_ok, task_ok, guard_ok] at done
  obtain ⟨task, found, live, done⟩ := done
  have settled : ∀ {next life : Life}, next.isTerminal = false → life.isTerminal = true →
      (st.setLife t next).life t ≠ some life := by
    rintro next life more terminal same
    simp only [State.life, State.setLife, get?_modifyTask, found, ↓reduceIte, Option.map_some,
      Option.some.injEq] at same
    simp [same, terminal] at more
  split at done
  · have quiet := Quiet.schedule done
    exact ⟨(setLife st t .ready).trans_quiet quiet, fun terminal same =>
      settled rfl terminal (quiet.toKeeps.ended terminal same)⟩
  · obtain ⟨_, done⟩ := guard_ok.1 done
    have quiet := Quiet.adjust done
    exact ⟨(setLife st t .waiting).trans_quiet quiet, fun terminal same =>
      settled rfl terminal (quiet.toKeeps.ended terminal same)⟩

theorem finish [Inhabited V] {result : Except (Error V) V} (idle : st.top t = none)
    (done : st.finish t result = .ok st') : Stops t st st' := by
  simp only [State.finish, bind_ok, task_ok, check_ok] at done
  obtain ⟨task, found, live, st₁, woken, retired⟩ := done
  have empty : task.top = none := by simpa [State.top, found] using idle
  have ends : Stops t st ((st.setLife t (finalLife result)).modifyTask t fun task =>
      { task with
        top := none, value := default, error := none,
        outcome := some (outcomeOf t result), joiners := .empty }) := by
    refine (setLife st t (finalLife result)).trans (modifyTask _ t (fun task' found' => ?_) fun _ => rfl)
    simp only [State.setLife, get?_modifyTask, found, ↓reduceIte, Option.map_some,
      Option.some.injEq] at found'
    exact (found' ▸ empty : task'.top = none).symm
  exact (ends.trans_quiet (Quiet.readyAll woken)).trans_quiet (Quiet.retire retired)

end Stops

end Tasking.State
