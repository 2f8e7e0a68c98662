import Tasking.Proofs.Apart.Enrolled
import Tasking.Proofs.Apart.Waking
import Tasking.Proofs.Ledger

/-! # Refusals that are alike

The search for cycles follows the tasks of one group only, but it goes no further than the scheduler has tasks
of any group on its list.  A search that comes back to the requester meets no task twice, and meets none that is
not on the list (`State.Enrolled.walk_within`).  So the bound never cuts it short, and groups of different sizes
beside the tasks in question make no difference to what is refused (`Likeness.Mirrors.refusal`).
-/

namespace Tasking

variable {V C : Type}

namespace State

variable {st st₁ : State V C} {home s : SchedulerId} {t u first : TaskId} {bound bound' : Nat}
  {path path' : List TaskId}

/-! ## Searches that come back -/

theorem walk_succ (st : State V C) (s : SchedulerId) (t : TaskId) (bound : Nat) (first : TaskId) :
    st.walk s t (bound + 1) first = if first = t then some [first] else
      (st.nextWaited s first).bind fun next => (st.walk s t bound next).map (first :: ·) := by
  rw [walk]
  split
  · rfl
  · cases st.nextWaited s first with
    | none => rfl
    | some next =>
      simp only [Option.bind_eq_bind, Option.bind_some]
      cases st.walk s t bound next <;> rfl

/-- Where a search leads does not depend on how far it may go. -/
theorem walk_unique (walk : st.walk s t bound first = some path) (walk' : st.walk s t bound' first = some path') :
    path = path' := by
  induction bound generalizing bound' first path path' with
  | zero => cases walk
  | succ bound inductionHypothesis =>
    cases bound' with
    | zero => cases walk'
    | succ bound' =>
      rw [walk_succ] at walk walk'
      split at walk
      · next here =>
        rw [if_pos here] at walk'
        exact Option.some.inj (walk.symm.trans walk')
      · next other =>
        rw [if_neg other] at walk'
        obtain ⟨next, edge, walk⟩ := Option.bind_eq_some_iff.1 walk
        obtain ⟨rest, onwards, rfl⟩ := Option.map_eq_some_iff.1 walk
        rw [edge] at walk'
        obtain ⟨rest', onwards', rfl⟩ := Option.map_eq_some_iff.1 walk'
        rw [inductionHypothesis onwards onwards']

/-- A search that comes back does so whenever it may go as far. -/
theorem walk_of_length_le (walk : st.walk s t bound first = some path) (enough : path.length ≤ bound') :
    st.walk s t bound' first = some path := by
  induction bound generalizing bound' first path with
  | zero => cases walk
  | succ bound inductionHypothesis =>
    rw [walk_succ] at walk
    cases bound' with
    | zero =>
      split at walk
      · cases Option.some.inj walk
        simp at enough
      · obtain ⟨next, edge, walk⟩ := Option.bind_eq_some_iff.1 walk
        obtain ⟨rest, onwards, rfl⟩ := Option.map_eq_some_iff.1 walk
        simp at enough
    | succ bound' =>
      rw [walk_succ]
      split at walk
      · next here => rwa [if_pos here]
      · next other =>
        obtain ⟨next, edge, walk⟩ := Option.bind_eq_some_iff.1 walk
        obtain ⟨rest, onwards, rfl⟩ := Option.map_eq_some_iff.1 walk
        rw [if_neg other, edge, Option.bind_some,
          inductionHypothesis onwards (Nat.le_of_succ_le_succ enough), Option.map_some]

/-- From everyone whom a search meets it goes on alike. -/
theorem walk_of_mem (walk : st.walk s t bound first = some path) (member : u ∈ path) :
    ∃ bound' rest, st.walk s t bound' u = some rest ∧ rest.length ≤ path.length := by
  induction bound generalizing first path with
  | zero => cases walk
  | succ bound inductionHypothesis =>
    have whole := walk
    rw [walk_succ] at walk
    split at walk
    · obtain rfl := Option.some.inj walk
      obtain rfl := List.mem_singleton.1 member
      exact ⟨_, _, whole, Nat.le_refl _⟩
    · obtain ⟨next, edge, walk⟩ := Option.bind_eq_some_iff.1 walk
      obtain ⟨rest, onwards, rfl⟩ := Option.map_eq_some_iff.1 walk
      cases List.mem_cons.1 member with
      | inl here =>
        subst here
        exact ⟨_, _, whole, Nat.le_refl _⟩
      | inr later =>
        obtain ⟨bound', rest', walk', short⟩ := inductionHypothesis onwards later
        exact ⟨bound', rest', walk', Nat.le_succ_of_le short⟩

/-- A search that comes back meets nobody twice. -/
theorem nodup_of_walk (walk : st.walk s t bound first = some path) : path.Nodup := by
  induction bound generalizing first path with
  | zero => cases walk
  | succ bound inductionHypothesis =>
    have whole := walk
    rw [walk_succ] at walk
    split at walk
    · obtain rfl := Option.some.inj walk
      exact List.nodup_singleton _
    · obtain ⟨next, edge, walk⟩ := Option.bind_eq_some_iff.1 walk
      obtain ⟨rest, onwards, rfl⟩ := Option.map_eq_some_iff.1 walk
      refine List.nodup_cons.2 ⟨fun again => ?_, inductionHypothesis onwards⟩
      -- The search would go on from the second time as from the first, which is longer.
      obtain ⟨bound', rest', walk', short⟩ := walk_of_mem onwards again
      have same := congrArg List.length (walk_unique whole walk')
      rw [List.length_cons] at same
      omega

/-- Somebody is on the list of a scheduler. -/
def OnList (st : State V C) (s : SchedulerId) (t : TaskId) : Prop :=
  ∃ task, st.tasks.get? t = some task ∧ task.scheduler = s ∧ task.listed = true

theorem Enrolled.onList_of_blocker (enrolled : st.Enrolled home) {target : WaitTarget}
    (blocks : st.blocker s target = some t) : st.OnList home t := by
  cases target with
  | resource r =>
    simp only [blocker, Option.bind_eq_bind, Option.bind_eq_some_iff, listedTask?, Option.filter_eq_some_iff,
      Bool.and_eq_true, decide_eq_true_eq] at blocks
    obtain ⟨resource, _, owner, _, task, ⟨found, listed, _⟩, same⟩ := blocks
    obtain rfl := Option.some.inj same
    exact ⟨task, found, enrolled.home found, listed⟩
  | task c =>
    simp only [blocker, Option.bind_eq_bind, Option.bind_eq_some_iff] at blocks
    obtain ⟨task, found, blocks⟩ := blocks
    split at blocks
    · cases blocks
    · next open' =>
      obtain rfl := Option.some.inj blocks
      exact ⟨task, found, enrolled.home found, enrolled.listed found (by simpa using open')⟩
  | external => cases blocks

theorem Enrolled.onList_of_walk (enrolled : st.Enrolled home) (begins : st.OnList home first)
    (walk : st.walk s t bound first = some path) : ∀ u ∈ path, st.OnList home u := by
  induction bound generalizing first path with
  | zero => cases walk
  | succ bound inductionHypothesis =>
    rw [walk_succ] at walk
    split at walk
    · obtain rfl := Option.some.inj walk
      intro u member
      exact List.mem_singleton.1 member ▸ begins
    · obtain ⟨next, edge, walk⟩ := Option.bind_eq_some_iff.1 walk
      obtain ⟨rest, onwards, rfl⟩ := Option.map_eq_some_iff.1 walk
      have later : st.OnList home next := by
        simp only [nextWaited, Option.bind_eq_bind, Option.bind_eq_some_iff] at edge
        obtain ⟨_, _, target, _, blocks⟩ := edge
        exact enrolled.onList_of_blocker blocks
      exact List.forall_mem_cons.2 ⟨begins, inductionHypothesis later onwards⟩

/-- The tasks that a search meets are no more than the scheduler counts. -/
theorem Enrolled.length_le (enrolled : st.Enrolled home) {scheduler : Scheduler}
    (known : st.schedulers.get? home = some scheduler) (distinct : path.Nodup)
    (listed : ∀ u ∈ path, st.OnList home u) : path.length ≤ scheduler.tasks.toNat := by
  have inside : path ⊆ st.tasks.ids.filter fun u =>
      (st.tasks.get? u).any fun task => task.scheduler = home && task.counts .tasks := by
    intro u member
    obtain ⟨task, found, here, entered⟩ := listed u member
    refine List.mem_filter.2 ⟨Table.mem_ids found, ?_⟩
    rw [found]
    simp [here, Task.counts, entered]
  have fits := (distinct.subperm inside).length_le
  obtain ⟨scheduler', known', counts⟩ := enrolled.known
  obtain rfl := Option.some.inj (known.symm.trans known')
  rw [tally_eq_population, population, Table.countP_entries, List.countP_eq_length_filter] at counts
  rw [counts, Int.toNat_natCast]
  exact fits

/-- How far a search goes at most is far enough. -/
theorem Enrolled.walk_within (enrolled : st.Enrolled home) {scheduler : Scheduler}
    (known : st.schedulers.get? home = some scheduler) (begins : st.OnList home first)
    (walk : st.walk s t bound first = some path) :
    st.walk s t (scheduler.tasks.toNat + 1) first = some path := by
  apply walk_of_length_le walk
  have fits := enrolled.length_le known (nodup_of_walk walk) (enrolled.onList_of_walk begins walk)
  exact Nat.le_succ_of_le fits

end State

theorem State.tried_unchanged {st st₁ : State V C} {r : ResourceId} {t : TaskId} {taken : Bool}
    (tried : st.tryAcquire r t = .ok (taken, st₁)) (inUse : taken = false) : st = st₁ := by
  subst inUse
  simp only [State.tryAcquire, bind_ok] at tried
  obtain ⟨_, _, _, _, tried⟩ := tried
  split at tried
  · simp [pure_ok] at tried
  · exact congrArg Prod.snd (pure_ok.1 tried)

namespace Likeness

variable [Inhabited V] {L : Likeness V C} {st st' st₁ st₁' : State V C} {t t' u u' : TaskId}
  {s s' home home' : SchedulerId} {r r' : ResourceId} {w w' : WaitTarget} {task task' : Task V}

open State

/-! ## Searches in two runs -/

theorem Tasks.isFinished (alike : L.Tasks task task') : task.isFinished = task'.isFinished := by
  rw [Task.isFinished, Task.isFinished, alike.life]

namespace Mirrors

variable (mirrors : L.Mirrors st st')
include mirrors

theorem listedTask? (home : L.id s s') (same : L.id t t') :
    Option.Rel L.Tasks (st.listedTask? s t) (st'.listedTask? s' t') := by
  have related := mirrors.tasks t t' same
  unfold State.listedTask?
  revert related
  generalize st.tasks.get? t = x, st'.tasks.get? t' = x'
  intro related
  cases related with
  | none => exact .none
  | some alike =>
    simp only [Option.filter_some, Bool.and_eq_true, decide_eq_true_eq, alike.listed,
      L.same_iff alike.scheduler home]
    split
    · exact .some alike
    · exact .none

theorem blocker (home : L.id s s') (targets : L.Targets w w') :
    Option.Rel L.id (st.blocker s w) (st'.blocker s' w') := by
  cases targets with
  | resource same =>
    simp only [State.blocker, Option.bind_eq_bind]
    apply related_bind (mirrors.resources _ _ same)
    intro _ _ alike
    apply related_bind alike.owner
    intro _ _ also
    exact related_bind (mirrors.listedTask? home also) fun _ _ _ => .some also
  | task same =>
    simp only [State.blocker, Option.bind_eq_bind]
    apply related_bind (mirrors.tasks _ _ same)
    intro _ _ alike
    rw [alike.isFinished]
    split
    · exact .none
    · exact .some same
  | external => exact .none

theorem nextWaited (home : L.id s s') (same : L.id t t') :
    Option.Rel L.id (st.nextWaited s t) (st'.nextWaited s' t') := by
  simp only [State.nextWaited, Option.bind_eq_bind]
  apply related_bind (mirrors.tasks t t' same)
  intro _ _ alike
  exact related_bind alike.waiting fun _ _ targets => mirrors.blocker home targets

theorem walk (home : L.id s s') (same : L.id t t') (bound : Nat) (also : L.id u u') :
    Option.Rel (List.Forall₂ L.id) (st.walk s t bound u) (st'.walk s' t' bound u') := by
  induction bound generalizing u u' with
  | zero => exact .none
  | succ bound inductionHypothesis =>
    rw [walk_succ, walk_succ]
    simp only [L.same_iff also same]
    split
    · exact .some (.cons also .nil)
    · apply related_bind (mirrors.nextWaited home also)
      intro _ _ later
      exact related_map (inductionHypothesis later) fun _ _ path => .cons also path

section Enrolled

variable (enrolled : st.Enrolled home) (enrolled' : st'.Enrolled home')
include enrolled enrolled'

theorem findCycle (same : L.id t t') (targets : L.Targets w w') :
    Option.Rel (List.Forall₂ L.id) (st.findCycle t w) (st'.findCycle t' w') := by
  have related := mirrors.tasks t t' same
  simp only [State.findCycle, Option.bind_eq_bind]
  cases found : st.tasks.get? t with
  | none =>
    rw [none_of_related related found]
    exact .none
  | some task =>
    obtain ⟨task', found', alike⟩ := exists_of_related related found
    obtain ⟨scheduler, known, _⟩ := enrolled.known
    obtain ⟨scheduler', known', _⟩ := enrolled'.known
    have here := enrolled.home found
    have here' := enrolled'.home found'
    have home : L.id home home' := here ▸ here' ▸ alike.scheduler
    simp only [found', Option.bind_some, here, here', known, known']
    have blockers := mirrors.blocker home targets
    cases blocks : st.blocker _ w with
    | none =>
      rw [none_of_related blockers blocks]
      exact .none
    | some first =>
      obtain ⟨first', blocks', also⟩ := exists_of_related blockers blocks
      simp only [blocks', Option.bind_some]
      -- Both searches come back, if one does, whatever the bounds are.
      have begins := enrolled.onList_of_blocker blocks
      have begins' := enrolled'.onList_of_blocker blocks'
      cases walks : st.walk _ t (scheduler.tasks.toNat + 1) first with
      | some path =>
        obtain ⟨path', walks', paths⟩ := exists_of_related (mirrors.walk home same _ also) walks
        rw [enrolled'.walk_within known' begins' walks']
        exact .some (.cons same paths)
      | none =>
        cases walks' : st'.walk _ t' (scheduler'.tasks.toNat + 1) first' with
        | none => exact .none
        | some path' =>
          have paths := mirrors.walk home same (scheduler'.tasks.toNat + 1) also
          cases longer : st.walk _ t (scheduler'.tasks.toNat + 1) first with
          | none => cases (none_of_related paths longer).symm.trans walks'
          | some path => simp [enrolled.walk_within known begins longer] at walks

omit enrolled enrolled' in
theorem detects (home : L.id s s') : st.detects s = st'.detects s' := by
  exact related_any (mirrors.schedulers s s' home) fun _ _ alike => by rw [alike.settings]

/-- A request to wait is refused alike. -/
theorem refusal (same : L.id t t') (targets : L.Targets w w') :
    Option.Rel L.Refusals (st.refusal? t w) (st'.refusal? t' w') := by
  simp only [State.refusal?, Option.bind_eq_bind]
  apply related_bind (mirrors.tasks t t' same)
  intro _ _ alike
  rw [mirrors.detects alike.scheduler]
  split
  · exact related_bind (mirrors.findCycle enrolled enrolled' same targets) fun _ _ paths => .some ⟨same, paths⟩
  · exact .none

end Enrolled

/-! ## Resources -/

theorem setOwner (same : L.id r r') {owner owner' : Option TaskId} (owners : Option.Rel L.id owner owner') :
    L.Moves st st' (st.setOwner r owner) (st'.setOwner r' owner') :=
  mirrors.modifyResource same fun _ _ _ _ alike => { alike with owner := owners }

theorem announceWait (same : L.id t t') (targets : L.Targets w w') :
    L.Moves st st' (st.announceWait t w) (st'.announceWait t' w') :=
  mirrors.modifyTask same fun _ _ alike => { alike with waiting := .some targets }

theorem owner (same : L.id r r') : Option.Rel L.id (st.owner r) (st'.owner r') := by
  exact related_bind (mirrors.resources r r' same) fun _ _ alike => alike.owner

theorem owns (resource : L.id r r') (same : L.id t t') : st.owns t r = st'.owns t' r' := by
  rw [Bool.eq_iff_iff, owns_iff, owns_iff]
  exact some_iff (mirrors.owner resource) same

theorem tryAcquire {taken taken' : Bool} (resource : L.id r r') (same : L.id t t')
    (done : st.tryAcquire r t = .ok (taken, st₁)) (done' : st'.tryAcquire r' t' = .ok (taken', st₁')) :
    taken = taken' ∧ L.Moves st st' st₁ st₁' := by
  simp only [State.tryAcquire, bind_ok, resource_ok] at done done'
  obtain ⟨a, found, _, _, done⟩ := done
  obtain ⟨a', found', _, _, done'⟩ := done'
  have free := isSome_of_related (mirrors.resources.get resource found found').owner
  rw [← Option.not_isSome, ← free, Option.not_isSome] at done'
  split at done
  · next nobody =>
    rw [if_pos nobody] at done'
    simp only [pure_ok, Prod.mk.injEq] at done done'
    obtain ⟨rfl, rfl⟩ := done
    obtain ⟨rfl, rfl⟩ := done'
    exact ⟨rfl, mirrors.setOwner resource (.some same)⟩
  · next somebody =>
    rw [if_neg somebody] at done'
    simp only [pure_ok, Prod.mk.injEq] at done done'
    obtain ⟨rfl, rfl⟩ := done
    obtain ⟨rfl, rfl⟩ := done'
    exact ⟨rfl, mirrors.moves⟩

theorem joinQueue (resource : L.id r r') (same : L.id t t') (done : st.joinQueue r t = .ok st₁)
    (done' : st'.joinQueue r' t' = .ok st₁') : L.Moves st st' st₁ st₁' := by
  simp only [State.joinQueue, claimLink, bind_ok, check_ok, pure_ok] at done done'
  obtain ⟨_, ⟨_, _, _, rfl⟩, rfl⟩ := done
  obtain ⟨_, ⟨_, _, _, rfl⟩, rfl⟩ := done'
  have linked := mirrors.modifyTask same fun _ _ => Tasks.link
  apply linked.trans
  apply linked.mirrors.modifyResource resource
  exact fun _ _ _ _ alike => { alike with waiters := alike.waiters.push same }

theorem release (resource : L.id r r') (done : st.release r t = .ok st₁)
    (done' : st'.release r' t' = .ok st₁') : L.Moves st st' st₁ st₁' := by
  simp only [State.release, bind_ok, resource_ok, check_ok] at done done'
  obtain ⟨a, found, _, done⟩ := done
  obtain ⟨a', found', _, done'⟩ := done'
  have waiters := (mirrors.resources.get resource found found').waiters.pop
  cases popped : a.waiters.pop? with
  | none =>
    rw [popped] at done
    rw [none_of_related waiters popped] at done'
    exact pure_ok.1 done ▸ pure_ok.1 done' ▸ mirrors.setOwner resource .none
  | some line =>
    obtain ⟨line', popped', next, rest⟩ := exists_of_related waiters popped
    rw [popped] at done
    rw [popped'] at done'
    have given := mirrors.modifyResource resource
      (f := fun resource => { resource with owner := some line.1, waiters := line.2 })
      (g := fun resource => { resource with owner := some line'.1, waiters := line'.2 })
      fun _ _ _ _ alike => { alike with owner := .some next, waiters := rest }
    have taken := given.trans (given.mirrors.dropLink next)
    exact taken.trans (taken.mirrors.ready next done done')

section Enrolled

variable (enrolled : st.Enrolled home) (enrolled' : st'.Enrolled home')
include enrolled enrolled'

theorem acquire {granted granted' : Except Deadlock Grant} (resource : L.id r r') (same : L.id t t')
    (done : st.acquire r t = .ok (granted, st₁)) (done' : st'.acquire r' t' = .ok (granted', st₁')) :
    Replies L.Refusals Eq granted granted' ∧ L.Moves st st' st₁ st₁' := by
  simp only [State.acquire, bind_ok] at done done'
  obtain ⟨⟨taken, st₂⟩, tried, done⟩ := done
  obtain ⟨⟨taken', st₂'⟩, tried', done'⟩ := done'
  obtain ⟨rfl, moves⟩ := mirrors.tryAcquire resource same tried tried'
  split at done
  · next free =>
    rw [if_pos free] at done'
    simp only [pure_ok, Prod.mk.injEq] at done done'
    obtain ⟨rfl, rfl⟩ := done
    obtain ⟨rfl, rfl⟩ := done'
    exact ⟨.ok rfl, moves⟩
  · next inUse =>
    rw [if_neg inUse] at done'
    -- Nothing changed so far.
    obtain rfl : st = st₂ := tried_unchanged tried (by simpa using inUse)
    obtain rfl : st' = st₂' := tried_unchanged tried' (by simpa using inUse)
    have refusals := mirrors.refusal enrolled enrolled' same (.resource resource)
    cases refused : st.refusal? t (.resource r) with
    | some refusal =>
      obtain ⟨refusal', refused', alike⟩ := exists_of_related refusals refused
      simp only [refused, refused', pure_ok, Prod.mk.injEq] at done done'
      obtain ⟨rfl, rfl⟩ := done
      obtain ⟨rfl, rfl⟩ := done'
      exact ⟨.error alike, mirrors.moves⟩
    | none =>
      simp only [refused, none_of_related refusals refused, bind_ok, pure_ok, Prod.mk.injEq] at done done'
      obtain ⟨_, joined, rfl, rfl⟩ := done
      obtain ⟨_, joined', rfl, rfl⟩ := done'
      have announced := mirrors.announceWait same (.resource resource)
      exact ⟨.ok rfl, announced.trans (announced.mirrors.joinQueue resource same joined joined')⟩

theorem waitFor {c c' : TaskId} {reply reply' : Except Deadlock (Option (Outcome V))} (same : L.id t t')
    (child : L.id c c') (done : st.waitFor t c = .ok (reply, st₁))
    (done' : st'.waitFor t' c' = .ok (reply', st₁')) :
    Replies L.Refusals (Option.Rel L.Outcomes) reply reply' ∧ L.Moves st st' st₁ st₁' := by
  simp only [State.waitFor, bind_ok, task_ok] at done done'
  obtain ⟨awaited, found, _, _, done⟩ := done
  obtain ⟨awaited', found', _, _, done'⟩ := done'
  have outcomes := (mirrors.tasks.get child found found').outcome
  cases ended : awaited.outcome with
  | some outcome =>
    obtain ⟨outcome', ended', alike⟩ := exists_of_related outcomes ended
    simp only [ended, ended', pure_ok, Prod.mk.injEq] at done done'
    obtain ⟨rfl, rfl⟩ := done
    obtain ⟨rfl, rfl⟩ := done'
    exact ⟨.ok (.some alike), mirrors.moves⟩
  | none =>
    rw [ended] at done
    rw [none_of_related outcomes ended] at done'
    have refusals := mirrors.refusal enrolled enrolled' same (.task child)
    cases refused : st.refusal? t (.task c) with
    | some refusal =>
      obtain ⟨refusal', refused', alike⟩ := exists_of_related refusals refused
      simp only [refused, refused', pure_ok, Prod.mk.injEq] at done done'
      obtain ⟨rfl, rfl⟩ := done
      obtain ⟨rfl, rfl⟩ := done'
      exact ⟨.error alike, mirrors.moves⟩
    | none =>
      simp only [refused, none_of_related refusals refused, pure_ok, Prod.mk.injEq] at done done'
      obtain ⟨rfl, rfl⟩ := done
      obtain ⟨rfl, rfl⟩ := done'
      have announced := mirrors.announceWait same (.task child)
      refine ⟨.ok .none, announced.trans (announced.mirrors.modifyTask child ?_)⟩
      exact fun _ _ alike => { alike with joiners := alike.joiners.push same }

end Enrolled

end Mirrors

end Likeness

end Tasking
