import Tasking.Proofs.Deeds
import Tasking.Proofs.Steps

/-! # What a step does to resources

Whatever code a host writes, a step of a thread asks for at most one resource, or gives up at most one
(`Agent.dealing?`), and besides that leaves all owners and all waiters as they are
(`Config.dealt_of_step`).  The request is one that code makes itself, or one of the guard that the step
resumes.

`Dealing.accepted` and `Dealing.granted` say what came of it: whose request was accepted, and who became
the owner.  `State.Dealt.law` is the law of a single resource that they obey.
-/

namespace Tasking

variable {V C : Type}

/-- An operation on a resource. -/
inductive Dealing where
  | tryAcquire (r : ResourceId) (t : TaskId)
  | acquire (r : ResourceId) (t : TaskId)
  | release (r : ResourceId) (t : TaskId)

/-- The resource in question. -/
def Dealing.resource : Dealing → ResourceId
  | .tryAcquire r _ | .acquire r _ | .release r _ => r

/-- The operation on a resource that a request is for, if it is for one. -/
def Request.dealing? : Request V C → Option Dealing
  | .tryAcquire r t => some (.tryAcquire r t)
  | .acquire r t => some (.acquire r t)
  | .release r t => some (.release r t)
  | _ => none

namespace State

variable {st st' st₁ st₂ : State V C} {r q : ResourceId} {t u : TaskId} {task : Task V}

/-- The operation is carried out. -/
inductive Performs : State V C → Dealing → State V C → Prop where
  | tryAcquire {st st' : State V C} {r : ResourceId} {t : TaskId} {taken : Bool}
      (done : st.tryAcquire r t = .ok (taken, st')) : Performs st (.tryAcquire r t) st'
  | acquire {st st' : State V C} {r : ResourceId} {t : TaskId} {granted : Except Deadlock Grant}
      (done : st.acquire r t = .ok (granted, st')) : Performs st (.acquire r t) st'
  | release {st st' : State V C} {r : ResourceId} {t : TaskId} (done : st.release r t = .ok st') :
      Performs st (.release r t) st'

/-- The only operation on a resource was this, if it is one. -/
def Dealt (st : State V C) : Option Dealing → State V C → Prop
  | none, st' => st'.owner = st.owner ∧ st'.waiters = st.waiters
  | some dealing, st' => ∃ st₁ st₂, Aside st st₁ ∧ st₁.resources = st.resources ∧
      st₁.Performs dealing st₂ ∧ Aside st₂ st'

/-- What a frame does to a resource when it is resumed: a guard asks for its resource at first, unless it
gets an error, and gives it up once its body comes back. -/
def dealing? (st : State V C) (t : TaskId) (f : FrameId) (error : Option (Error V)) : Option Dealing :=
  match st.guard? f with
  | some (r, .start _) => if error.isNone then some (.acquire r t) else none
  | some (r, .held) => some (.release r t)
  | _ => none

end State

namespace Agent

/-- The frame that the next step resumes, if it resumes one, the task that it does that for, and the
error that the frame gets. -/
def resuming? (a : Agent V C) (st : State V C) : Option (TaskId × FrameId × Option (Error V)) :=
  match a.focus with
  | .trampoline t _ => do
    let task ← st.tasks.get? t
    let f ← task.top
    some (t, f, task.error)
  | .code (.unwind t target _ _) =>
    if st.top t = some target then none else (st.top t).map fun f => (t, f, some .cancelled)
  | _ => (a.resumed? st).map fun (t, f) => (t, f, some .cancelled)

/-- The operation on a resource that the next step carries out, if it carries out one. -/
def dealing? (a : Agent V C) (st : State V C) : Option Dealing :=
  match a.focus with
  | .code (.ask request _) => request.dealing?
  | _ => (a.resuming? st).bind fun (t, f, error) => st.dealing? t f error

end Agent

namespace Task

variable {task task' : Task V}

theorem SameBooks.woken (same : task.SameBooks task') :
    Task.SameBooks (woken { task with linked := false }) (woken { task' with linked := false }) := by
  rw [same]
  unfold Task.woken
  split <;> rfl

end Task

namespace Dealing

/-- The task whose request was accepted: it got the resource, or is in line for it. -/
def accepted (st : State V C) : Dealing → Option TaskId
  | .tryAcquire r t =>
    match st.tryAcquire r t with
    | .ok (true, _) => some t
    | _ => none
  | .acquire r t =>
    match st.acquire r t with
    | .ok (.ok _, _) => some t
    | _ => none
  | .release _ _ => none

/-- The task that was made the owner. -/
def granted (st st' : State V C) : Dealing → Option TaskId
  | .tryAcquire r t =>
    match st.tryAcquire r t with
    | .ok (true, _) => some t
    | _ => none
  | .acquire r t =>
    match st.acquire r t with
    | .ok (.ok .acquired, _) => some t
    | _ => none
  | .release r _ => st'.owner r

end Dealing

namespace State

variable {st st' st₁ st₂ : State V C} {r q : ResourceId} {t u : TaskId} {f : FrameId} {task : Task V}

/-! ## Requests meet with the same reply whatever the frames are -/

theorem blocker_resource_eq (s : SchedulerId) (r : ResourceId) : st.blocker s (.resource r) =
    (st.owner r).filter fun owner => (st.listedTask? s owner).isSome := by
  unfold blocker owner
  cases found : st.resources.get? r with
  | none => simp [found]
  | some resource =>
    cases owns : resource.owner with
    | none => simp [found, owns]
    | some owner => cases listed : st.listedTask? s owner <;> simp [found, owns, listed, Option.filter]

theorem blocker_task_eq (s : SchedulerId) (t : TaskId) : st.blocker s (.task t) =
    if (st.tasks.get? t).map Task.isFinished = some false then some t else none := by
  unfold blocker
  cases found : st.tasks.get? t with
  | none => simp [found]
  | some task => cases ended : task.isFinished <;> simp [found, ended]

namespace Aside

theorem rel (aside : Aside st st') (t : TaskId) :
    (st.tasks.get? t = none ∧ st'.tasks.get? t = none) ∨ ∃ task task', st.tasks.get? t = some task ∧
      st'.tasks.get? t = some task' ∧ task.SameBooks task' := by
  have same := aside.tasks t
  revert same
  generalize st.tasks.get? t = x
  generalize st'.tasks.get? t = y
  rintro (⟨same⟩ | _)
  · exact .inr ⟨_, _, rfl, rfl, same⟩
  · exact .inl ⟨rfl, rfl⟩

/-- What the books say of a task is the same before and after. -/
theorem map_eq {α : Type} (aside : Aside st st') (t : TaskId) {f : Task V → α}
    (same : ∀ {task task' : Task V}, task.SameBooks task' → f task' = f task) :
    (st'.tasks.get? t).map f = (st.tasks.get? t).map f := by
  rcases aside.rel t with ⟨absent, absent'⟩ | ⟨task, task', found, found', books⟩
  · rw [absent, absent']
  · rw [found, found', Option.map_some, Option.map_some, same books]

theorem listedTask? (aside : Aside st st') (s : SchedulerId) (t : TaskId) :
    (st'.listedTask? s t).isSome = (st.listedTask? s t).isSome := by
  unfold State.listedTask?
  rcases aside.rel t with ⟨absent, absent'⟩ | ⟨task, task', found, found', books⟩
  · rw [absent, absent']
  · have same : (task'.listed, task'.scheduler) = (task.listed, task.scheduler) := by rw [books]
    simp only [Prod.mk.injEq] at same
    simp [found, found', same, Option.isSome_filter]

theorem blocker (aside : Aside st st') (s : SchedulerId) (target : WaitTarget) :
    st'.blocker s target = st.blocker s target := by
  cases target with
  | external => rfl
  | task t =>
    simp only [blocker_task_eq]
    rw [aside.map_eq t fun books => by rw [Task.isFinished, Task.isFinished, books]]
  | resource r =>
    simp only [blocker_resource_eq, aside.owner, aside.listedTask?]

theorem nextWaited (aside : Aside st st') (s : SchedulerId) (t : TaskId) :
    st'.nextWaited s t = st.nextWaited s t := by
  unfold State.nextWaited
  rcases aside.rel t with ⟨absent, absent'⟩ | ⟨task, task', found, found', books⟩
  · rw [absent, absent']
    rfl
  · have waiting : task'.waiting = task.waiting := by rw [books]
    simp only [found, found', Option.bind_eq_bind, Option.bind_some, waiting, aside.blocker]

theorem walk (aside : Aside st st') (s : SchedulerId) (requester : TaskId) (bound : Nat) (t : TaskId) :
    st'.walk s requester bound t = st.walk s requester bound t := by
  induction bound generalizing t with
  | zero => rfl
  | succ bound inductionHypothesis => simp only [State.walk, aside.nextWaited, inductionHypothesis]

theorem refusal? (aside : Aside st st') (t : TaskId) (target : WaitTarget) :
    st'.refusal? t target = st.refusal? t target := by
  unfold State.refusal? State.findCycle State.detects
  rcases aside.rel t with ⟨absent, absent'⟩ | ⟨task, task', found, found', books⟩
  · rw [absent, absent']
    rfl
  · have scheduler : task'.scheduler = task.scheduler := by rw [books]
    simp only [found, found', Option.bind_eq_bind, Option.bind_some, scheduler, aside.schedulers,
      aside.blocker, aside.walk]

theorem link (aside : Aside st st') (t : TaskId) : st'.link t = st.link t :=
  aside.map_eq t fun books => by rw [books]

end Aside

/-! ## When an operation succeeds -/

section

variable (known : (st.resources.get? r).isSome = true) (known' : (st.tasks.get? t).isSome = true)

include known known'

theorem tryAcquire_free (free : st.owner r = none) :
    st.tryAcquire r t = .ok (true, st.setOwner r (some t)) := by
  obtain ⟨resource, found⟩ := Option.isSome_iff_exists.1 known
  obtain ⟨task, found'⟩ := Option.isSome_iff_exists.1 known'
  refine bind_ok.2 ⟨resource, resource_ok.2 found, bind_ok.2 ⟨task, task_ok.2 found', ?_⟩⟩
  rw [if_pos (by simpa [owner_of_get? found] using free)]
  rfl

theorem tryAcquire_owned (owned : st.owner r ≠ none) : st.tryAcquire r t = .ok (false, st) := by
  obtain ⟨resource, found⟩ := Option.isSome_iff_exists.1 known
  obtain ⟨task, found'⟩ := Option.isSome_iff_exists.1 known'
  refine bind_ok.2 ⟨resource, resource_ok.2 found, bind_ok.2 ⟨task, task_ok.2 found', ?_⟩⟩
  rw [if_neg (by simpa [owner_of_get? found] using owned)]
  rfl

theorem acquire_free (free : st.owner r = none) :
    st.acquire r t = .ok (.ok .acquired, st.setOwner r (some t)) :=
  bind_ok.2 ⟨_, tryAcquire_free known known' free, rfl⟩

theorem acquire_refused (owned : st.owner r ≠ none) {refusal : Deadlock}
    (refused : st.refusal? t (.resource r) = some refusal) : st.acquire r t = .ok (.error refusal, st) := by
  refine bind_ok.2 ⟨_, tryAcquire_owned known known' owned, ?_⟩
  simp only [Bool.false_eq_true, ↓reduceIte, refused]
  rfl

theorem acquire_blocked (owned : st.owner r ≠ none) (allowed : st.refusal? t (.resource r) = none)
    {s : SchedulerId} (free : st.link t = some (s, false)) :
    st.acquire r t = .ok (.ok .blocked, (st.announceWait t (.resource r)).inLine t r) := by
  obtain ⟨task, found⟩ := Option.isSome_iff_exists.1 known'
  refine bind_ok.2 ⟨_, tryAcquire_owned known known' owned, ?_⟩
  simp only [Bool.false_eq_true, ↓reduceIte, allowed]
  have free' : task.linked = false := by
    simp only [link, found, Option.map_some, Option.some.injEq, Prod.mk.injEq] at free
    exact free.2
  refine bind_ok.2 ⟨_, bind_ok.2 ⟨_, bind_ok.2 ⟨{ task with waiting := some (.resource r) }, ?_, ?_⟩, rfl⟩, rfl⟩
  · rw [task_ok, announceWait, get?_modifyTask, if_pos rfl, found]
    rfl
  · exact check_ok.2 ⟨by simpa using free', rfl⟩

end

namespace Aside

/-- A request meets with the same reply whatever the frames are. -/
theorem acquire (aside : Aside st st₁) (resources : st₁.resources = st.resources)
    {granted : Except Deadlock Grant} (done : st₁.acquire r t = .ok (granted, st₂)) :
    ∃ st₃, st.acquire r t = .ok (granted, st₃) := by
  obtain ⟨known, known', replied⟩ := acquire_ok done
  have owner := aside.owner r
  have refusal := aside.refusal? t (.resource r)
  rw [resources] at known
  replace known' : (st.tasks.get? t).isSome = true := by
    rcases aside.rel t with ⟨_, absent⟩ | ⟨task, task', found, _⟩
    · simp [absent] at known'
    · simp [found]
  rcases replied with ⟨rfl, free, _⟩ | ⟨owned, ⟨_, rfl, refused, _⟩ | ⟨rfl, allowed, ⟨s, link⟩, _⟩⟩
  · exact ⟨_, acquire_free known known' (owner ▸ free)⟩
  · exact ⟨_, acquire_refused known known' (owner ▸ owned) (refusal ▸ refused)⟩
  · exact ⟨_, acquire_blocked known known' (owner ▸ owned) (refusal ▸ allowed) (aside.link t ▸ link)⟩

end Aside

theorem tryAcquire_ok {taken : Bool} (done : st.tryAcquire r t = .ok (taken, st')) :
    (st.resources.get? r).isSome = true ∧ (st.tasks.get? t).isSome = true ∧
      (taken = true ∧ st.owner r = none ∧ st' = st.setOwner r (some t) ∨
        taken = false ∧ st.owner r ≠ none ∧ st' = st) := by
  simp only [State.tryAcquire, bind_ok, resource_ok, task_ok] at done
  obtain ⟨resource, found, task, found', tried⟩ := done
  refine ⟨by simp [found], by simp [found'], ?_⟩
  rw [owner_of_get? found]
  split at tried
  · next free =>
    simp only [pure_ok, Prod.mk.injEq] at tried
    exact .inl ⟨tried.1.symm, by simpa using free, tried.2.symm⟩
  · next owned =>
    simp only [pure_ok, Prod.mk.injEq] at tried
    exact .inr ⟨tried.1.symm, by simpa using owned, tried.2.symm⟩

theorem Aside.tryAcquire (aside : Aside st st₁) (resources : st₁.resources = st.resources) {taken : Bool}
    (done : st₁.tryAcquire r t = .ok (taken, st₂)) : ∃ st₃, st.tryAcquire r t = .ok (taken, st₃) := by
  obtain ⟨known, known', tried⟩ := tryAcquire_ok done
  have owner := aside.owner r
  rw [resources] at known
  replace known' : (st.tasks.get? t).isSome = true := by
    rcases aside.rel t with ⟨_, absent⟩ | ⟨task, task', found, _⟩
    · simp [absent] at known'
    · simp [found]
  rcases tried with ⟨rfl, free, _⟩ | ⟨rfl, owned, _⟩
  · exact ⟨_, tryAcquire_free known known' (owner ▸ free)⟩
  · exact ⟨_, tryAcquire_owned known known' (owner ▸ owned)⟩

/-! ## The law of a resource -/

/-- The task whose request for the resource was accepted, if any. -/
def accepts (st : State V C) (r : ResourceId) (dealing : Option Dealing) : List TaskId :=
  dealing.elim [] fun dealing => if dealing.resource = r then (dealing.accepted st).toList else []

/-- The task that was made the owner of the resource, if any. -/
def grants (st st' : State V C) (r : ResourceId) (dealing : Option Dealing) : List TaskId :=
  dealing.elim [] fun dealing => if dealing.resource = r then (dealing.granted st st').toList else []

/-- Requests get in line, and owners come from the head of the line. -/
structure Hands (st st' : State V C) (r : ResourceId) (accepted granted : List TaskId) : Prop where
  line : st.waiters r ++ accepted = granted ++ st'.waiters r
  free : st'.owner r = none → st'.waiters r = []
  owned : ∀ t, st'.owner r = some t → granted = [t] ∨ granted = [] ∧ st.owner r = some t

theorem Hands.still (free : st.owner r = none → st.waiters r = []) (owner : st'.owner r = st.owner r)
    (waiters : st'.waiters r = st.waiters r) : st.Hands st' r [] [] where
  line := by rw [waiters, List.append_nil, List.nil_append]
  free nobody := waiters ▸ free (owner ▸ nobody)
  owned _ owns := .inr ⟨rfl, owner ▸ owns⟩

theorem Quiet.owner (quiet : Quiet st st') : st'.owner = st.owner := by
  unfold State.owner
  rw [quiet.resources]

theorem Quiet.waiters (quiet : Quiet st st') : st'.waiters = st.waiters := by
  unfold State.waiters
  rw [quiet.resources]

/-- Giving a resource up hands it to the head of the line. -/
theorem handed_of_release (done : st.release r t = .ok st') :
    st'.owner = Function.update st.owner r (st.waiters r).head? ∧
      st'.waiters = Function.update st.waiters r (st.waiters r).tail := by
  obtain ⟨known, _, ⟨nobody, rfl⟩ | ⟨next, rest, line, woken⟩⟩ := release_ok done
  · rw [nobody, owner_setOwner known, waiters_setOwner]
    exact ⟨rfl, by rw [List.tail_nil, ← nobody, Function.update_eq_self]⟩
  · have quiet := Quiet.ready woken
    rw [line, quiet.owner, quiet.waiters, owner_handed known, waiters_handed_eq known]
    exact ⟨rfl, rfl⟩

/-- An operation leaves all other resources alone. -/
theorem Performs.elsewhere {dealing : Dealing} (performs : st.Performs dealing st')
    (other : dealing.resource ≠ r) : st'.owner r = st.owner r ∧ st'.waiters r = st.waiters r := by
  cases performs with
  | @tryAcquire _ q _ _ done =>
    have other : r ≠ q := Ne.symm other
    obtain ⟨known, _, ⟨_, _, rfl⟩ | ⟨_, _, rfl⟩⟩ := tryAcquire_ok done
    · rw [owner_setOwner known, waiters_setOwner, Function.update_of_ne other]
      exact ⟨rfl, rfl⟩
    · exact ⟨rfl, rfl⟩
  | @acquire _ q _ _ done =>
    have other : r ≠ q := Ne.symm other
    obtain ⟨known, _, ⟨_, _, rfl⟩ | ⟨_, ⟨_, _, _, rfl⟩ | ⟨_, _, _, rfl⟩⟩⟩ := acquire_ok done
    · rw [owner_setOwner known, waiters_setOwner, Function.update_of_ne other]
      exact ⟨rfl, rfl⟩
    · exact ⟨rfl, rfl⟩
    · rw [owner_inLine, waiters_inLine_eq (by exact known), Function.update_of_ne other]
      exact ⟨by rw [owner_announceWait], by rw [waiters_announceWait]⟩
  | @release _ q _ done =>
    have other : r ≠ q := Ne.symm other
    obtain ⟨owner, waiters⟩ := handed_of_release done
    rw [owner, waiters, Function.update_of_ne other, Function.update_of_ne other]
    exact ⟨rfl, rfl⟩

theorem accepts_tryAcquire {taken : Bool} (done : st.tryAcquire r t = .ok (taken, st')) :
    st.accepts r (some (.tryAcquire r t)) = if taken then [t] else [] := by
  cases taken <;> simp [accepts, Dealing.resource, Dealing.accepted, done]

theorem grants_tryAcquire {taken : Bool} (done : st.tryAcquire r t = .ok (taken, st')) :
    st.grants st'' r (some (.tryAcquire r t)) = if taken then [t] else [] := by
  cases taken <;> simp [grants, Dealing.resource, Dealing.granted, done]

theorem accepts_acquire {granted : Except Deadlock Grant} (done : st.acquire r t = .ok (granted, st')) :
    st.accepts r (some (.acquire r t)) = if granted.isOk then [t] else [] := by
  cases granted <;> simp [accepts, Dealing.resource, Dealing.accepted, done, Except.isOk, Except.toBool]

theorem grants_acquire {granted : Except Deadlock Grant} (done : st.acquire r t = .ok (granted, st')) :
    st.grants st'' r (some (.acquire r t)) = if granted = .ok .acquired then [t] else [] := by
  rcases granted with _ | (_ | _) <;> simp [grants, Dealing.resource, Dealing.granted, done]

theorem accepts_release : st.accepts r (some (.release r t)) = [] := by
  simp [accepts, Dealing.resource, Dealing.accepted]

theorem grants_release : st.grants st'' r (some (.release r t)) = (st''.owner r).toList := by
  simp [grants, Dealing.resource, Dealing.granted]

namespace Hands

/-- A request for a free resource is granted at once. -/
theorem take (free : st.waiters r = []) (owner : st'.owner r = some t) (waiters : st'.waiters r = []) :
    st.Hands st' r [t] [t] where
  line := by rw [free, waiters, List.append_nil, List.nil_append]
  free nobody := by simp [owner] at nobody
  owned u owns := .inl (by rw [Option.some.inj (owner.symm.trans owns)])

/-- A request for a resource in use gets in line. -/
theorem queue (owned : st.owner r ≠ none) (owner : st'.owner r = st.owner r)
    (waiters : st'.waiters r = st.waiters r ++ [t]) : st.Hands st' r [t] [] where
  line := by rw [waiters, List.nil_append]
  free nobody := absurd (owner.symm.trans nobody) owned
  owned _ owns := .inr ⟨rfl, owner ▸ owns⟩

/-- A resource that is given up goes to the head of the line. -/
theorem handOver (owner : st'.owner r = (st.waiters r).head?) (waiters : st'.waiters r = (st.waiters r).tail) :
    st.Hands st' r [] (st'.owner r).toList := by
  rw [owner]
  cases line : st.waiters r with
  | nil =>
    rw [line] at owner waiters
    exact ⟨by rw [line, waiters]; rfl, fun _ => waiters, fun t owns => by simp [owner] at owns⟩
  | cons next rest =>
    rw [line] at owner waiters
    refine ⟨by rw [line, waiters]; simp, fun nobody => by simp [owner] at nobody, fun t owns => .inl ?_⟩
    rw [← Option.some.inj (owner.symm.trans owns)]
    rfl

end Hands

theorem Dealt.hands {dealing : Option Dealing} (dealt : st.Dealt dealing st')
    (free : st.owner r = none → st.waiters r = []) :
    st.Hands st' r (st.accepts r dealing) (st.grants st' r dealing) := by
  cases dealing with
  | none => exact .still free (congrFun dealt.1 r) (congrFun dealt.2 r)
  | some dealing =>
    obtain ⟨st₁, st₂, before, resources, performs, behind⟩ := dealt
    have owner := behind.owner r
    have waiters := behind.waiters r
    have owner₁ := before.owner r
    have waiters₁ := before.waiters r
    by_cases other : dealing.resource ≠ r
    · obtain ⟨owner₂, waiters₂⟩ := performs.elsewhere other
      simp only [accepts, grants, Option.elim_some, if_neg other]
      exact .still free (owner.trans (owner₂.trans owner₁)) (waiters.trans (waiters₂.trans waiters₁))
    · cases performs with
      | @tryAcquire _ q t taken done =>
        obtain rfl : q = r := not_not.1 other
        obtain ⟨st₃, done'⟩ := before.tryAcquire resources done
        rw [accepts_tryAcquire done', grants_tryAcquire done']
        obtain ⟨known, _, ⟨rfl, nobody, rfl⟩ | ⟨rfl, _, rfl⟩⟩ := tryAcquire_ok done
        · have empty := free (owner₁.symm.trans nobody)
          refine .take empty ?_ ?_
          · rw [owner, owner_setOwner known, Function.update_self]
          · rw [waiters, waiters_setOwner, waiters₁, empty]
        · exact .still free (owner.trans owner₁) (waiters.trans waiters₁)
      | @acquire _ q t granted done =>
        obtain rfl : q = r := not_not.1 other
        obtain ⟨st₃, done'⟩ := before.acquire resources done
        rw [accepts_acquire done', grants_acquire done']
        obtain ⟨known, _, ⟨rfl, nobody, rfl⟩ | ⟨owned, ⟨_, rfl, _, rfl⟩ | ⟨rfl, _, _, rfl⟩⟩⟩ := acquire_ok done
        · have empty := free (owner₁.symm.trans nobody)
          refine .take empty ?_ ?_
          · rw [owner, owner_setOwner known, Function.update_self]
          · rw [waiters, waiters_setOwner, waiters₁, empty]
        · exact .still free (owner.trans owner₁) (waiters.trans waiters₁)
        · refine .queue (owner₁ ▸ owned) ?_ ?_
          · rw [owner, owner_inLine, owner_announceWait, owner₁]
          · rw [waiters, waiters_inLine_eq (by exact known), Function.update_self, waiters_announceWait,
              waiters₁]
      | @release _ q t done =>
        obtain rfl : q = r := not_not.1 other
        obtain ⟨owner₂, waiters₂⟩ := handed_of_release done
        rw [accepts_release, grants_release]
        refine .handOver ?_ ?_
        · rw [owner, owner₂, Function.update_self, waiters₁]
        · rw [waiters, waiters₂, Function.update_self, waiters₁]

/-- Nobody takes a resource that is in use. -/
theorem Dealt.tried (dealt : st.Dealt (some (.tryAcquire r t)) st') (owned : st.owner r ≠ none) :
    st.accepts r (some (.tryAcquire r t)) = [] ∧ st'.owner r = st.owner r ∧ st'.waiters r = st.waiters r := by
  obtain ⟨st₁, st₂, before, resources, tried | ⟨⟩ | ⟨⟩, behind⟩ := dealt
  obtain ⟨st₃, tried'⟩ := before.tryAcquire resources tried
  obtain ⟨_, _, ⟨_, nobody, _⟩ | ⟨rfl, _, rfl⟩⟩ := tryAcquire_ok tried
  · exact absurd ((before.owner r).symm.trans nobody) owned
  · exact ⟨accepts_tryAcquire tried', (before.trans behind).owner r, (before.trans behind).waiters r⟩

/-- A resource that is given up goes to the head of the line. -/
theorem Dealt.handed (dealt : st.Dealt (some (.release r t)) st') :
    st'.owner r = (st.waiters r).head? ∧ st'.waiters r = (st.waiters r).tail := by
  obtain ⟨st₁, st₂, before, resources, ⟨⟩ | ⟨⟩ | released, behind⟩ := dealt
  obtain ⟨owner, waiters⟩ := handed_of_release released
  rw [behind.owner, behind.waiters, owner, waiters, Function.update_self, Function.update_self,
    before.waiters]
  exact ⟨rfl, rfl⟩

/-- A task was taken out of the line in which it waited, and woken. -/
structure Rouses (st st' : State V C) (t : TaskId) : Prop where
  woken : ∃ task task', st.tasks.get? t = some task ∧ st'.tasks.get? t = some task' ∧
    (task.life = .waiting ∨ task.life = .running) ∧
    Task.SameBooks (Task.woken { task with linked := false }) task'
  others : ∀ u, u ≠ t → Option.Rel Task.SameBooks (st.tasks.get? u) (st'.tasks.get? u)

/-- Whoever gives a resource up owns it, and wakes the task that gets it, and nobody else. -/
theorem Dealt.rouses (dealt : st.Dealt (some (.release r t)) st') : st.owner r = some t ∧
    (st.waiters r = [] ∧ (∀ u, Option.Rel Task.SameBooks (st.tasks.get? u) (st'.tasks.get? u)) ∨
      ∃ next rest, st.waiters r = next :: rest ∧ st.Rouses st' next) := by
  obtain ⟨st₁, st₂, before, resources, ⟨⟩ | ⟨⟩ | released, behind⟩ := dealt
  have through : ∀ {u}, st₂.tasks.get? u = st₁.tasks.get? u →
      Option.Rel Task.SameBooks (st.tasks.get? u) (st'.tasks.get? u) := by
    intro u same
    have first := before.tasks u
    have second := behind.tasks u
    rw [same] at second
    exact sameBooks_trans first second
  obtain ⟨_, owns, ⟨nobody, rfl⟩ | ⟨next, rest, line, woken⟩⟩ := release_ok released
  · exact ⟨before.owner r ▸ owns, .inl ⟨before.waiters r ▸ nobody, fun u => through rfl⟩⟩
  · refine ⟨before.owner r ▸ owns, .inr ⟨next, rest.toList, before.waiters r ▸ line, ?_⟩⟩
    have handed : ∀ u, (st₁.handed next r rest).tasks.get? u =
        if u = next then (st₁.tasks.get? next).map fun task => { task with linked := false }
        else st₁.tasks.get? u := fun u => get?_modifyTask _ next u _
    obtain ⟨other, found⟩ := exists_of_task woken
    have awake := becomes_ready found woken
    have live := (ready_ok found woken).imp And.left And.left
    rw [handed, if_pos rfl] at found
    obtain ⟨task₁, found₁, rfl⟩ := Option.map_eq_some_iff.1 found
    constructor
    · obtain ⟨_, absent⟩ | ⟨task, _, first, first', same⟩ := before.rel next
      · simp [absent] at found₁
      obtain rfl := Option.some.inj (found₁.symm.trans first')
      obtain ⟨absent, _⟩ | ⟨_, task', second, second', same'⟩ := behind.rel next
      · simp [awake.self] at absent
      obtain rfl := Option.some.inj (awake.self.symm.trans second)
      have life : task₁.life = task.life := by rw [same]
      exact ⟨task, task', first, second', life ▸ live, same.woken.trans same'⟩
    · intro u other
      exact through ((awake.other other).trans (by rw [handed, if_neg other]))

/-! ## Steps -/

theorem Aside.dealt (aside : Aside st st') : st.Dealt none st' := ⟨funext aside.owner, funext aside.waiters⟩

theorem Dealt.of_resources (same : st'.resources = st.resources) : st.Dealt none st' := by
  constructor
  · unfold State.owner
    rw [same]
  · unfold State.waiters
    rw [same]

theorem Dealt.single {dealing : Dealing} (performs : st.Performs dealing st') : st.Dealt (some dealing) st' :=
  ⟨st, st', .refl st, rfl, performs, .refl st'⟩

/-- Something else happens before. -/
theorem Dealt.before {dealing : Option Dealing} (aside : Aside st st₁) (resources : st₁.resources = st.resources)
    (dealt : st₁.Dealt dealing st') : st.Dealt dealing st' := by
  cases dealing with
  | none => exact ⟨dealt.1.trans (funext aside.owner), dealt.2.trans (funext aside.waiters)⟩
  | some dealing =>
    obtain ⟨st₂, st₃, aside', resources', performs, behind⟩ := dealt
    exact ⟨st₂, st₃, aside.trans aside', resources'.trans resources, performs, behind⟩

theorem dealt_of_serve [Inhabited V] {request : Request V C} {reply : request.Reply}
    (done : st.serve request = .ok (reply, st')) : st.Dealt request.dealing? st' := by
  have rest : st' = st → st.Dealt none st' := by
    rintro rfl
    exact .of_resources rfl
  cases request with
  | tryAcquire r t => exact .single (.tryAcquire done)
  | acquire r t => exact .single (.acquire done)
  | release r t =>
    simp only [serve, bind_ok, pure_ok, Prod.mk.injEq] at done
    obtain ⟨_, released, _, rfl⟩ := done
    exact .single (.release released)
  | spawn s entry =>
    simp only [serve, State.spawn, bind_ok] at done
    obtain ⟨scheduler, _, done⟩ := done
    split at done
    · simp only [pure_ok, Prod.mk.injEq] at done
      exact rest done.2.symm
    · simp only [pure_ok, Prod.mk.injEq] at done
      exact .of_resources (by rw [← done.2]; rfl)
  | spawnBound s entry =>
    simp only [serve, State.spawnBound, bind_ok] at done
    obtain ⟨scheduler, _, done⟩ := done
    split at done
    · simp only [pure_ok, Prod.mk.injEq] at done
      exact rest done.2.symm
    · split at done
      · simp only [pure_ok, Prod.mk.injEq] at done
        exact .of_resources (by rw [← done.2]; rfl)
      · simp at done
      · simp only [bind_ok, pure_ok, Prod.mk.injEq] at done
        obtain ⟨st₁, started, _, rfl⟩ := done
        exact .of_resources (Quiet.startBound started).resources
  | start t =>
    simp only [serve, bind_ok, pure_ok, Prod.mk.injEq] at done
    obtain ⟨_, started, _, rfl⟩ := done
    exact .of_resources (Quiet.start started).resources
  | ready t =>
    simp only [serve, bind_ok, pure_ok, Prod.mk.injEq] at done
    obtain ⟨_, woken, _, rfl⟩ := done
    exact .of_resources (Quiet.ready woken).resources
  | yield t =>
    simp only [serve, bind_ok, pure_ok, Prod.mk.injEq] at done
    obtain ⟨_, yielded, _, rfl⟩ := done
    exact .of_resources (Quiet.yield yielded).resources
  | waitExternal t =>
    simp only [serve, bind_ok, pure_ok, Prod.mk.injEq] at done
    obtain ⟨_, waits, _, rfl⟩ := done
    exact .of_resources (Quiet.waitExternal waits).resources
  | pause t f =>
    simp only [serve, bind_ok, pure_ok, Prod.mk.injEq] at done
    obtain ⟨_, paused, _, rfl⟩ := done
    exact (Aside.of_pause paused).dealt
  | move t target =>
    simp only [serve, State.move, bind_ok] at done
    obtain ⟨task, _, done⟩ := done
    split at done
    · simp only [pure_ok, Prod.mk.injEq] at done
      exact .of_resources (by rw [← done.2]; rfl)
    · simp only [pure_ok, Prod.mk.injEq] at done
      exact rest done.2.symm
  | waitFor t child => exact .of_resources (Quiet.waitFor done).resources
  | newScheduler settings g =>
    rcases addScheduler_ok done with rfl | ⟨workers, rfl⟩
    · exact rest rfl
    · exact .of_resources rfl
  | stop s =>
    simp only [serve, bind_ok, pure_ok, Prod.mk.injEq] at done
    obtain ⟨_, stopped, _, rfl⟩ := done
    exact .of_resources (Quiet.stop stopped).resources
  | _ =>
    obtain ⟨_, _, owner, waiters⟩ := serve_bookless rfl done
    exact ⟨funext owner, funext waiters⟩

/-- Resuming a guard. -/
theorem dealt_of_resumeGuard {phase : Phase V} {value : V} {error : Option (Error V)} {answer : Answer V}
    (guard : st.guard? f = some (r, phase))
    (done : st.resumeGuard t f r phase value error = .ok (answer, st')) :
    st.Dealt (st.dealing? t f error) st' := by
  have recoded : Aside st (st.setCode f (.guard r .released)) := .setCode st f _
  cases phase with
  | start body =>
    simp only [State.resumeGuard] at done
    split at done
    · simp only [pure_ok, Prod.mk.injEq] at done
      simp only [dealing?, guard]
      exact done.2 ▸ recoded.dealt
    · simp only [bind_ok] at done
      obtain ⟨⟨granted, st₁⟩, acquired, done⟩ := done
      simp only [dealing?, guard]
      refine ⟨_, st₁, recoded, rfl, .acquire acquired, ?_⟩
      dsimp only at done
      split at done
      · exact (Aside.setCode st₁ f _).trans (.of_callFrame done)
      · simp only [pure_ok, Prod.mk.injEq] at done
        exact done.2 ▸ .setCode st₁ f _
      · simp only [pure_ok, Prod.mk.injEq] at done
        exact done.2 ▸ .refl _
  | waiting body kept =>
    simp only [State.resumeGuard, check_ok] at done
    obtain ⟨_, _, done⟩ := done
    simp only [dealing?, guard]
    exact (recoded.trans ((Aside.setCode _ f _).trans (.of_callFrame done))).dealt
  | held =>
    simp only [State.resumeGuard, bind_ok, pure_ok, Prod.mk.injEq] at done
    obtain ⟨st₁, released, _, rfl⟩ := done
    simp only [dealing?, guard]
    exact ⟨_, st₁, recoded, rfl, .release released, .refl _⟩
  | released => simp [State.resumeGuard] at done

theorem dealt_of_resumeJoin {child : TaskId} {parked : Bool} {error : Option (Error V)} {answer : Answer V}
    (done : st.resumeJoin t f child parked error = .ok (answer, st')) : st.Dealt none st' := by
  have rest : st' = st → st.Dealt none st' := by
    rintro rfl
    exact .of_resources rfl
  unfold State.resumeJoin at done
  split at done
  · simp only [pure_ok, Prod.mk.injEq] at done
    exact rest done.2.symm
  · split at done
    · simp only [bind_ok, task_ok] at done
      obtain ⟨awaited, _, done⟩ := done
      split at done
      · simp only [pure_ok, Prod.mk.injEq] at done
        exact rest done.2.symm
      · simp at done
    · simp only [bind_ok] at done
      obtain ⟨⟨reply, st₁⟩, waited, done⟩ := done
      have asked := (Quiet.waitFor waited).resources
      split at done <;> simp only [pure_ok, Prod.mk.injEq] at done <;> exact .of_resources (done.2 ▸ asked)

theorem dealt_of_resumeMessage {a : ActorId} {message : V} {delivered : Bool} {value : V}
    {error : Option (Error V)} {resumption : Resumption V C}
    (done : st.resumeMessage t f a message delivered value error = .ok (resumption, st')) :
    st.Dealt none st' := by
  unfold State.resumeMessage at done
  split at done
  · simp only [pure_ok, Prod.mk.injEq] at done
    exact .of_resources (done.2 ▸ rfl)
  · split at done
    · simp only [pure_ok, Prod.mk.injEq] at done
      exact .of_resources (done.2 ▸ rfl)
    · simp only [bind_ok] at done
      obtain ⟨actor, _, may, _, done⟩ := done
      split at done
      · simp only [pure_ok, Prod.mk.injEq] at done
        exact .of_resources (done.2 ▸ rfl)
      · simp at done

theorem dealt_of_resume {value : V} {error : Option (Error V)} {resumption : Resumption V C}
    (done : st.resume t f value error = .ok (resumption, st')) : st.Dealt (st.dealing? t f error) st' := by
  simp only [State.resume, bind_ok, frame_ok] at done
  obtain ⟨frame, found, done⟩ := done
  have guard : st.guard? f = frame.code.guard? := by simp [State.guard?, found]
  cases code : frame.code with
  | guard r phase =>
    simp only [code, bind_ok, pure_ok, Prod.mk.injEq] at done
    obtain ⟨⟨answer, st₁⟩, resumed, _, rfl⟩ := done
    exact dealt_of_resumeGuard (guard.trans (by rw [code]; rfl)) resumed
  | host body =>
    simp only [code, pure_ok, Prod.mk.injEq] at done
    simp only [dealing?, guard, code, Frame.Code.guard?]
    exact done.2 ▸ .of_resources rfl
  | join child parked =>
    simp only [code, bind_ok, pure_ok, Prod.mk.injEq] at done
    obtain ⟨⟨answer, st₁⟩, resumed, _, rfl⟩ := done
    simp only [dealing?, guard, code, Frame.Code.guard?]
    exact dealt_of_resumeJoin resumed
  | message a message delivered =>
    simp only [code] at done
    simp only [dealing?, guard, code, Frame.Code.guard?]
    exact dealt_of_resumeMessage done

end State

namespace Config

variable [Inhabited V] {c config : Config V C} {st st₁ : State V C} {focus after otherwise : Focus V C}
  {stack : List (Activation V C)} {t : TaskId} {f : FrameId} {target : FrameId} {value : V}

open State

omit [Inhabited V] in
theorem dealt_of_resumeFrame {error : Option (Error V)} {activation : Activation V C}
    (done : (⟨st, focus, stack⟩ : Config V C).resumeFrame t f value error activation = .ok config) :
    st.Dealt (st.dealing? t f error) config.state := by
  obtain ⟨resumption, st', resumed, rfl⟩ := Crew.Sound.resumeFrame_ok done
  exact dealt_of_resume resumed

theorem dealt_of_cancelNext {doomed : List FrameId}
    (done : (⟨st, focus, stack⟩ : Config V C).cancelNext t doomed target value after = .ok config) :
    st.Dealt (doomed.head?.bind fun f => st.dealing? t f (some .cancelled)) config.state := by
  cases doomed with
  | nil =>
    obtain rfl := pure_ok.1 done
    exact .of_resources rfl
  | cons f rest =>
    exact dealt_of_resumeFrame
      (show (⟨st, focus, stack⟩ : Config V C).resumeFrame t f default (some .cancelled)
        (.cancel t rest target value after) = .ok config from done)

omit [Inhabited V] in
/-- The frames that an unwind skips begin at the top, unless that is the target. -/
theorem head?_of_framesAbove {top : Option FrameId} {doomed : List FrameId}
    (walk : st.framesAbove top target = some doomed) :
    doomed.head? = if top = some target then none else top := by
  obtain ⟨first, _⟩ := framesAbove_some walk
  simp only [framesAbove, Option.ite_none_right_eq_some, Option.some.injEq] at walk
  obtain ⟨_, rfl⟩ := walk
  cases doomed : (st.chainOf top).takeWhile (· ≠ target) with
  | nil =>
    rw [doomed, List.nil_append, List.head?_cons] at first
    rw [if_pos first.symm, List.head?_nil]
  | cons f rest =>
    rw [doomed, List.cons_append, List.head?_cons] at first
    have apart : f ≠ target := by
      have all := List.all_takeWhile (l := st.chainOf top) (p := fun f => decide (f ≠ target))
      rw [doomed] at all
      simpa using (List.all_eq_true.1 all) f List.mem_cons_self
    rw [← first, if_neg fun same => apart (Option.some.inj same), List.head?_cons]

theorem dealt_of_unwind (done : (⟨st, focus, stack⟩ : Config V C).unwind t target value after = .ok config) :
    st.Dealt ((if st.top t = some target then none else st.top t).bind fun f =>
      st.dealing? t f (some .cancelled)) config.state := by
  simp only [unwind, bind_ok, task_ok, check_ok] at done
  obtain ⟨task, found, _, done⟩ := done
  rw [top_of_get? found]
  split at done
  · next doomed walk =>
    rw [← head?_of_framesAbove walk]
    exact dealt_of_cancelNext done
  · simp at done

theorem dealt_of_jump (done : (⟨st, focus, stack⟩ : Config V C).jump t f target value after = .ok config) :
    st.Dealt (let top := Agent.topAfterJump st t f target
      (if top = some target then none else top).bind fun g => st.dealing? t g (some .cancelled))
      config.state := by
  simp only [jump, bind_ok, task_ok, frame_ok] at done
  obtain ⟨task, found, frame, code, done⟩ := done
  have same : (if task.top = some f ∧ f ≠ target then frame.caller else task.top) =
      Agent.topAfterJump st t f target := by
    simp [Agent.topAfterJump, top_of_get? found, State.caller, code]
  rw [same] at done
  have moved : Aside st (st.modifyTask t fun task => { task with top := Agent.topAfterJump st t f target }) :=
    .modifyTask st t fun _ => rfl
  split at done
  · next lands =>
    obtain rfl := pure_ok.1 done
    simp only [lands, ↓reduceIte, Option.bind_none]
    exact .of_resources rfl
  · have dealt := dealt_of_unwind done
    have top := @top_modifyTask_eq _ _ st t (fun task => { task with top := Agent.topAfterJump st t f target })
      (Agent.topAfterJump st t f target) (by simp [found]) fun _ => rfl
    have dealt' := Dealt.before moved rfl dealt
    rw [show State.top _ t = _ from congrFun top t, Function.update_self] at dealt'
    exact dealt'

omit [Inhabited V] in
theorem dealt_of_runReady {s : SchedulerId} {w : Worker}
    (done : (⟨st, focus, stack⟩ : Config V C).runReady s w after otherwise = .ok config) :
    st.Dealt none config.state := by
  simp only [runReady, bind_ok] at done
  obtain ⟨⟨next, st₁⟩, taken, done⟩ := done
  have resources := (Quiet.takeReady taken).resources
  cases next with
  | none =>
    obtain rfl := pure_ok.1 done
    exact .of_resources resources
  | some t =>
    simp only [beginRun, tryState, bind_ok, pure_ok] at done
    obtain ⟨_, ⟨st₂, begun, rfl⟩, rfl⟩ := done
    exact .of_resources ((Quiet.beginRun begun).1.resources.trans resources)

theorem dealt_of_finishFrame {result : Except (Error V) V}
    (done : (⟨st, focus, stack⟩ : Config V C).finishFrame t f result after = .ok config) :
    st.Dealt none config.state := by
  simp only [finishFrame, bind_ok, task_ok, check_ok, frame_ok] at done
  obtain ⟨task, _, _, frame, _, done⟩ := done
  split at done
  · simp only [finishRun, tryState, mapState, bind_ok, pure_ok] at done
    obtain ⟨_, ⟨st₁, finished, rfl⟩, rfl⟩ := done
    obtain ⟨other, found⟩ := exists_of_task finished
    obtain ⟨_, st₂, woken, retired⟩ := finish_ok found finished
    exact .of_resources ((Quiet.retire retired).resources.trans (Quiet.readyAll woken).resources)
  · obtain rfl := pure_ok.1 done
    exact .of_resources rfl

theorem dealt_of_deliver {answer : Answer V}
    (done : (⟨st, .code (.answer answer), stack⟩ : Config V C).deliver answer = .ok config) :
    st.Dealt (Agent.dealing? ⟨.code (.answer answer), stack⟩ st) config.state := by
  cases stack with
  | nil =>
    obtain rfl := pure_ok.1 done
    exact .of_resources rfl
  | cons x rest =>
    cases x with
    | frame t f after =>
      cases answer with
      | done value => exact dealt_of_finishFrame done
      | throw error => exact dealt_of_finishFrame done
      | suspended =>
        simp only [deliver, takeAnswer, suspendRun, tryState, bind_ok, pure_ok] at done
        obtain ⟨_, ⟨st', parked, rfl⟩, rfl⟩ := done
        exact .of_resources (Stops.park parked).1.resources
      | jump target value =>
        have dealt := dealt_of_jump
          (show (⟨st, _, rest⟩ : Config V C).jump t f target value after = .ok config from done)
        simp only [Agent.dealing?, Agent.resuming?, Agent.resumed?]
        by_cases lands : Agent.topAfterJump st t f target = some target
        · simpa [lands] using dealt
        · simpa [lands, Option.bind_map, Function.comp_def] using dealt
    | cancel t doomed target value after =>
      have dealt := dealt_of_cancelNext
        (show (⟨st, _, rest⟩ : Config V C).cancelNext t doomed target value after = .ok config from done)
      cases doomed with
      | nil => exact dealt
      | cons f doomed => exact dealt
    | call next =>
      obtain rfl := pure_ok.1 done
      exact .of_resources rfl
    | opened x =>
      obtain rfl := pure_ok.1 done
      exact .of_resources rfl

theorem dealt_of_stepCode {p : Program V C}
    (done : (⟨st, .code p, stack⟩ : Config V C).stepCode p = .ok config) :
    st.Dealt (Agent.dealing? ⟨.code p, stack⟩ st) config.state := by
  cases p with
  | answer answer => exact dealt_of_deliver done
  | ask request next =>
    simp only [stepCode, bind_ok, pure_ok] at done
    obtain ⟨⟨reply, st₁⟩, served, rfl⟩ := done
    exact dealt_of_serve served
  | newFrame label body next =>
    simp only [stepCode, pure_ok] at done
    subst done
    exact .of_resources rfl
  | newActor first handler next =>
    simp only [stepCode, pure_ok] at done
    subst done
    exact ⟨funext (owner_addResource none), funext (waiters_addResource none)⟩
  | register g name native next =>
    simp only [stepCode, State.register, bind_ok, pure_ok] at done
    obtain ⟨⟨reply, st₁⟩, ⟨registry, _, registered⟩, rfl⟩ := done
    simp only [Prod.mk.injEq] at registered
    obtain ⟨_, rfl⟩ := registered
    exact .of_resources rfl
  | callNative g name context arguments next =>
    simp only [stepCode, bind_ok] at done
    obtain ⟨registry, _, done⟩ := done
    split at done
    · obtain rfl := pure_ok.1 done
      exact .of_resources rfl
    · obtain rfl := pure_ok.1 done
      exact .of_resources rfl
  | unwind t target value next =>
    have dealt := dealt_of_unwind
      (show (⟨st, _, stack⟩ : Config V C).unwind t target value (.code next) = .ok config from done)
    simp only [Agent.dealing?, Agent.resuming?]
    by_cases lands : st.top t = some target
    · simpa [lands] using dealt
    · simpa [lands, Option.bind_map, Function.comp_def] using dealt
  | drive s next =>
    obtain rfl := pure_ok.1 done
    exact .of_resources rfl
  | within x t inside next =>
    simp only [stepCode, bind_ok] at done
    obtain ⟨opens, _, done⟩ := done
    split at done
    · obtain rfl := pure_ok.1 done
      exact .of_resources rfl
    · obtain rfl := pure_ok.1 done
      exact .of_resources rfl
  | await condition limit next =>
    obtain rfl := pure_ok.1 done
    exact .of_resources rfl

/-- Whatever code runs, a step carries out the operation that the thread is about to carry out, and does
nothing else to resources. -/
theorem dealt_of_step (step : c.step = .ok config) :
    c.state.Dealt (c.agent.dealing? c.state) config.state := by
  obtain ⟨st, focus, stack⟩ := c
  cases focus with
  | code p => exact dealt_of_stepCode step
  | trampoline t after =>
    simp only [Config.step, resumeTop, bind_ok, task_ok] at step
    obtain ⟨task, found, step⟩ := step
    cases top : task.top with
    | none => simp [top] at step
    | some f =>
      simp only [top] at step
      have dealt := dealt_of_resumeFrame step
      simp only [agent, Agent.dealing?, Agent.resuming?, found, top, Option.bind_eq_bind, Option.bind_some]
      refine .before (.modifyTask st t ?_) rfl dealt
      exact fun _ => rfl
  | drain s runs next => exact dealt_of_runReady step
  | waiting condition limit next =>
    simp only [Config.step, keepWaiting] at step
    split at step
    · obtain rfl := pure_ok.1 step
      exact .of_resources rfl
    · split at step
      · exact dealt_of_runReady step
      · obtain rfl := pure_ok.1 step
        exact .of_resources rfl
  | work s index => exact dealt_of_runReady step
  | own t index =>
    simp only [Config.step, beginRun, tryState, bind_ok, pure_ok] at step
    obtain ⟨_, ⟨st₂, begun, rfl⟩, rfl⟩ := step
    exact .of_resources (Quiet.beginRun begun).1.resources
  | rest =>
    obtain rfl := pure_ok.1 step
    exact .of_resources rfl

end Config

end Tasking
