import Tasking.Proofs.Picture

/-! # Guards and the resources they hold

A guard waits for its resource or holds it while it is on the chain of a task.
`Picture.Warded` is the invariant that ties owners to guards:

* a task owns a resource exactly if one guard on its chain holds it, or was handed it and is
  about to be woken (`held`, `owned`), and no two guards hold the same resource (`alone`);
* whatever a task uses above a guard is part of the guard's body, so the guard holds its
  resource (`beneath`);
* a guard that waits is the top of its task's chain, and the task is in line for the resource or
  owns it already (`parked`, `queued`); nobody is in line for a free resource (`free`).

Only five things happen to a guard, and each keeps the invariant: it lets an error pass or is
refused (`Warded.settle`), it takes a free resource (`Warded.take`), gets in line
(`Warded.wait`), is woken as the owner (`Warded.enter`), and lets go (`Warded.letGo`).
-/

namespace Tasking

/-- A guard in this phase waits for its resource or holds it. -/
def Phase.engaged {V : Type} : Phase V → Bool
  | .start _ | .released => false
  | .waiting _ _ | .held => true

namespace Picture

variable {V : Type}

/-- A guard on a task's chain has its resource: it holds it, or the task was made the owner
    while the guard was waiting. -/
def Holds (p : Picture V) (t : TaskId) (f : FrameId) (r : ResourceId) : Prop :=
  p.OnChain t f ∧ (p.guard f = some (r, .held) ∨
    (∃ body value, p.guard f = some (r, .waiting body value)) ∧ p.owner r = some t ∧
      t ∉ p.waiters r)

/-- A task that does not run, or runs nothing above this frame. -/
def Rests (stage : Option Stage) (f : FrameId) : Prop :=
  stage = none ∨ stage = some .next ∨ stage = some (.inside f)

/-- Chains are in order, and owners and guards agree. -/
structure Warded (p : Picture V) : Prop extends p.Woven where
  held : ∀ {f r}, p.guard f = some (r, .held) → ∃ t, p.OnChain t f ∧ p.owner r = some t
  beneath : ∀ {t h f r phase}, p.Uses t h → p.caller h = some f →
    p.guard f = some (r, phase) → phase = .held
  called : ∀ {h f r phase}, p.caller h = some f → p.guard f = some (r, phase) →
    phase = .held ∨ phase = .released
  owned : ∀ {t r}, p.owner r = some t → ∃ f, p.Holds t f r
  alone : ∀ {t u f g r}, p.Holds t f r → p.Holds u g r → f = g
  parked : ∀ {f r body value}, p.guard f = some (r, .waiting body value) →
    ∃ t, p.top t = some f ∧ Rests (p.stage t) f ∧ (t ∈ p.waiters r ∨ p.owner r = some t)
  queued : ∀ {t r}, t ∈ p.waiters r → ∃ f body value, p.top t = some f ∧
    p.guard f = some (r, .waiting body value) ∧ Rests (p.stage t) f ∧
    (p.stage t = some .next → p.owner r ≠ some t)
  free : ∀ {r}, p.owner r = none → p.waiters r = []
  nodup : ∀ r, (p.waiters r).Nodup
  pushed : ∀ {t g h r phase}, p.stage t = some (.inside g) → p.top t = some h → h ≠ g →
    p.guard h = some (r, phase) → ∃ body, phase = .start body

variable {p : Picture V}

theorem base_rests {t : TaskId} {f : FrameId} (rests : Rests (p.stage t) f) :
    p.base t = p.top t := by
  rcases rests with idle | next | inside
  · exact base_idle idle
  · exact base_next next
  · exact base_inside inside

/-- A frame begins the part of a task's chain that counts, and no other frame runs for the
    task. -/
def Front (p : Picture V) (t : TaskId) (f : FrameId) : Prop :=
  p.base t = some f ∧ ∀ g, p.stage t = some (.inside g) → g = f

theorem Front.onChain {t : TaskId} {f : FrameId} (front : p.Front t f) : p.OnChain t f :=
  .of_base front.1

/-- No frame in use returns to the frame at the front. -/
theorem Woven.nothing_above (woven : p.Woven) {t u : TaskId} {f h : FrameId}
    (front : p.Front t f) (uses : p.Uses u h) : p.caller h ≠ some f := by
  intro link
  obtain rfl : u = t := woven.apart (.inl (woven.uses_caller uses link)) (.inl front.onChain)
  rcases uses with ⟨b, base, way⟩ | stage
  · obtain rfl : f = b := Option.some.inj (front.1.symm.trans base)
    exact woven.acyclic f (Relation.TransGen.tail' way link)
  · obtain rfl := front.2 h stage
    exact woven.acyclic h (.single link)

/-- A frame at the front is what its task would be woken at. -/
theorem Front.eq_top {t : TaskId} {f g : FrameId} (front : p.Front t f)
    (top : p.top t = some g) (rests : Rests (p.stage t) g) : g = f :=
  Option.some.inj (top.symm.trans ((base_rests rests).symm.trans front.1))

namespace Warded

/-- A waiting guard that was handed its resource is the top of the owner's chain. -/
theorem top_of_holds (warded : p.Warded) {t : TaskId} {f : FrameId} {r : ResourceId}
    {body : FrameId} {value : V} (holds : p.Holds t f r)
    (waiting : p.guard f = some (r, .waiting body value)) :
    p.top t = some f ∧ Rests (p.stage t) f := by
  obtain ⟨u, top, rests, _⟩ := warded.parked waiting
  have on : p.OnChain u f := .of_base ((base_rests rests).trans top)
  obtain rfl : u = t := warded.apart (.inl on) (.inl holds.1)
  exact ⟨top, rests⟩

end Warded

/-! ## What happens to a guard -/

/-- The picture after a guard on a resource went to a phase, with the owner and the waiters of the
    resource from then on. -/
def ward (p : Picture V) (f : FrameId) (r : ResourceId) (phase : Phase V) (owner : Option TaskId)
    (waiters : List TaskId) : Picture V :=
  { p with
    guard := Function.update p.guard f (some (r, phase))
    owner := Function.update p.owner r owner
    waiters := Function.update p.waiters r waiters }

section Ward

variable {t : TaskId} {f : FrameId} {r : ResourceId} {before phase : Phase V}
  {owner : Option TaskId} {waiters : List TaskId}

theorem guard_ward_ne {g : FrameId} (other : g ≠ f) :
    (p.ward f r phase owner waiters).guard g = p.guard g := by
  simp [ward, other]

@[simp] theorem guard_ward_self :
    (p.ward f r phase owner waiters).guard f = some (r, phase) := by
  simp [ward]

@[simp] theorem owner_ward_self : (p.ward f r phase owner waiters).owner r = owner := by
  simp [ward]

@[simp] theorem waiters_ward_self : (p.ward f r phase owner waiters).waiters r = waiters := by
  simp [ward]

theorem owner_ward_ne {q : ResourceId} (other : q ≠ r) :
    (p.ward f r phase owner waiters).owner q = p.owner q := by
  simp [ward, other]

theorem waiters_ward_ne {q : ResourceId} (other : q ≠ r) :
    (p.ward f r phase owner waiters).waiters q = p.waiters q := by
  simp [ward, other]

/-- Guards of other resources are untouched. -/
theorem holds_ward_ne (guards : p.guard f = some (r, before)) {u : TaskId} {g : FrameId}
    {q : ResourceId} (other : q ≠ r) :
    (p.ward f r phase owner waiters).Holds u g q ↔ p.Holds u g q := by
  unfold Holds
  rw [owner_ward_ne other, waiters_ward_ne other]
  by_cases same : g = f
  · subst same
    simp [guards, Ne.symm other]
  · rw [guard_ward_ne same]
    rfl

/-- What happens to a guard at the front of its task's chain concerns that guard, the owner of
    its resource, and those that wait for it. -/
theorem Warded.ward (warded : p.Warded) (front : p.Front t f)
    (guards : p.guard f = some (r, before))
    (called : before = .held ∨ before = .released → phase = .held ∨ phase = .released)
    (held : phase = .held → owner = some t)
    (others : ∀ g, g ≠ f → p.guard g = some (r, .held) → owner = p.owner r)
    (owned : ∀ u, owner = some u → ∃ g, (p.ward f r phase owner waiters).Holds u g r)
    (alone : ∀ u v g h, (p.ward f r phase owner waiters).Holds u g r →
      (p.ward f r phase owner waiters).Holds v h r → g = h)
    (parked : ∀ g body value,
      (p.ward f r phase owner waiters).guard g = some (r, .waiting body value) →
      ∃ u, p.top u = some g ∧ Rests (p.stage u) g ∧ (u ∈ waiters ∨ owner = some u))
    (queued : ∀ u ∈ waiters, ∃ g body value, p.top u = some g ∧
      (p.ward f r phase owner waiters).guard g = some (r, .waiting body value) ∧
      Rests (p.stage u) g ∧ (p.stage u = some .next → owner ≠ some u))
    (free : owner = none → waiters = []) (nodup : waiters.Nodup) :
    (p.ward f r phase owner waiters).Warded where
  acyclic := warded.acyclic
  caller_known := warded.caller_known
  top_known := warded.top_known
  apart := warded.apart
  inside := warded.inside
  path := warded.path
  held {g q} holding := by
    by_cases same : g = f
    · subst same
      obtain ⟨rfl, rfl⟩ : r = q ∧ phase = .held := by simpa using holding
      exact ⟨t, front.onChain, owner_ward_self.trans (held rfl)⟩
    · rw [guard_ward_ne same] at holding
      obtain ⟨u, on, owns⟩ := warded.held holding
      refine ⟨u, on, ?_⟩
      by_cases own : q = r
      · subst own
        exact owner_ward_self.trans ((others g same holding).trans owns)
      · exact (owner_ward_ne own).trans owns
  beneath {u h g q phase'} uses link guard := by
    have different : g ≠ f := by
      rintro rfl
      exact warded.nothing_above front uses link
    rw [guard_ward_ne different] at guard
    exact warded.beneath uses link guard
  called {h g q phase'} link guard := by
    by_cases same : g = f
    · subst same
      obtain ⟨rfl, rfl⟩ : r = q ∧ phase = phase' := by simpa using guard
      exact called (warded.called link guards)
    · rw [guard_ward_ne same] at guard
      exact warded.called link guard
  owned {u q} owns := by
    by_cases own : q = r
    · subst own
      exact owned u (owner_ward_self.symm.trans owns)
    · rw [owner_ward_ne own] at owns
      obtain ⟨g, holds⟩ := warded.owned owns
      exact ⟨g, (holds_ward_ne guards own).2 holds⟩
  alone {u v g h q} first second := by
    by_cases own : q = r
    · subst own
      exact alone u v g h first second
    · exact warded.alone ((holds_ward_ne guards own).1 first) ((holds_ward_ne guards own).1 second)
  parked {g q body value} waiting := by
    by_cases own : q = r
    · subst own
      rw [owner_ward_self, waiters_ward_self]
      exact parked g body value waiting
    · have different : g ≠ f := by
        rintro rfl
        exact own (by simpa using congrArg (Option.map Prod.fst) waiting.symm)
      rw [guard_ward_ne different] at waiting
      rw [owner_ward_ne own, waiters_ward_ne own]
      exact warded.parked waiting
  queued {u q} member := by
    by_cases own : q = r
    · subst own
      rw [waiters_ward_self] at member
      rw [owner_ward_self]
      exact queued u member
    · rw [waiters_ward_ne own] at member
      obtain ⟨g, body, value, top, waiting, stage⟩ := warded.queued member
      refine ⟨g, body, value, top, ?_, owner_ward_ne (p := p) own ▸ stage⟩
      rw [guard_ward_ne, waiting]
      rintro rfl
      exact own (by simpa using congrArg (Option.map Prod.fst) (waiting.symm.trans guards))
  free {q} nobody := by
    by_cases own : q = r
    · subst own
      rw [owner_ward_self] at nobody
      exact waiters_ward_self.trans (free nobody)
    · rw [owner_ward_ne own] at nobody
      exact (waiters_ward_ne own).trans (warded.free nobody)
  nodup q := by
    by_cases own : q = r
    · subst own
      exact waiters_ward_self ▸ nodup
    · exact (waiters_ward_ne (p := p) own) ▸ warded.nodup q
  pushed {u g h q phase'} stage top different guard := by
    have apart : h ≠ f := by
      rintro rfl
      have on : p.OnChain u h := .of_base ((base_inside stage).trans top)
      obtain rfl : u = t := warded.apart (.inl on) (.inl front.onChain)
      exact different (front.2 g stage).symm
    rw [guard_ward_ne apart] at guard
    exact warded.pushed stage top different guard

namespace Warded

/-- The guard itself does not have its resource before it asks. -/
theorem ne_of_holds {u : TaskId} {g : FrameId} {q : ResourceId} (guards : p.guard f = some (r, before))
    (idle : before.engaged = false) (holds : p.Holds u g q) : g ≠ f := by
  rintro rfl
  rcases holds with ⟨_, held | ⟨⟨body, value, waiting⟩, _⟩⟩
  · obtain ⟨rfl, rfl⟩ : q = r ∧ Phase.held = before := by simpa [held] using guards
    simp [Phase.engaged] at idle
  · obtain ⟨rfl, rfl⟩ : q = r ∧ .waiting body value = before := by simpa [waiting] using guards
    simp [Phase.engaged] at idle

/-- A guard that does not ask, or is refused, changes no ownership. -/
theorem settle (warded : p.Warded) (front : p.Front t f) {body : FrameId}
    (guards : p.guard f = some (r, .start body)) :
    (p.ward f r .released (p.owner r) (p.waiters r)).Warded := by
  have holds : ∀ u g, (p.ward f r .released (p.owner r) (p.waiters r)).Holds u g r ↔
      p.Holds u g r := by
    intro u g
    unfold Holds
    rw [owner_ward_self, waiters_ward_self]
    by_cases same : g = f
    · subst same
      simp [guards]
    · rw [guard_ward_ne same]
      rfl
  refine warded.ward front guards (by simp) (by simp) (fun _ _ _ => rfl) ?_ ?_ ?_ ?_
    warded.free (warded.nodup r)
  · intro u owns
    obtain ⟨g, having⟩ := warded.owned owns
    exact ⟨g, (holds u g).2 having⟩
  · intro u v g h first second
    exact warded.alone ((holds u g).1 first) ((holds v h).1 second)
  · intro g body' value waiting
    have other : g ≠ f := by
      rintro rfl
      simp at waiting
    rw [guard_ward_ne other] at waiting
    exact warded.parked waiting
  · intro u member
    obtain ⟨g, body', value, top, waiting, stage⟩ := warded.queued member
    refine ⟨g, body', value, top, ?_, stage⟩
    rwa [guard_ward_ne]
    rintro rfl
    simp [guards] at waiting

/-- A guard takes its resource when nobody owns it. -/
theorem take (warded : p.Warded) (front : p.Front t f) {body : FrameId}
    (guards : p.guard f = some (r, .start body)) (nobody : p.owner r = none) :
    (p.ward f r .held (some t) (p.waiters r)).Warded := by
  have empty := warded.free nobody
  have notHeld : ∀ g, p.guard g ≠ some (r, .held) := fun g held => by
    obtain ⟨u, _, owns⟩ := warded.held held
    simp [nobody] at owns
  have notWaiting : ∀ g body value, p.guard g ≠ some (r, .waiting body value) :=
    fun g body value waiting => by
      obtain ⟨u, _, _, member | owns⟩ := warded.parked waiting
      · simp [empty] at member
      · simp [nobody] at owns
  have only : ∀ u g, (p.ward f r .held (some t) (p.waiters r)).Holds u g r → g = f := by
    intro u g holds
    by_contra other
    rcases holds with ⟨_, held | ⟨⟨body', value, waiting⟩, _⟩⟩
    · exact notHeld g ((guard_ward_ne other).symm.trans held)
    · exact notWaiting g body' value ((guard_ward_ne other).symm.trans waiting)
  refine warded.ward front guards (by simp) (fun _ => rfl) (fun g _ held => absurd held (notHeld g))
    ?_ ?_ ?_ ?_ (by simp) (warded.nodup r)
  · intro u owns
    obtain rfl : t = u := Option.some.inj owns
    exact ⟨f, front.onChain, .inl guard_ward_self⟩
  · intro u v g h first second
    exact (only u g first).trans (only v h second).symm
  · intro g body' value waiting
    have other : g ≠ f := by
      rintro rfl
      simp at waiting
    exact absurd ((guard_ward_ne other).symm.trans waiting) (notWaiting g body' value)
  · intro u member
    simp [empty] at member

/-- A guard gets in line for its resource. -/
theorem wait (warded : p.Warded) {body : FrameId} {value : V} (top : p.top t = some f)
    (stage : p.stage t = some (.inside f)) (guards : p.guard f = some (r, .start body))
    (owned : p.owner r ≠ none) :
    (p.ward f r (.waiting body value) (p.owner r) (p.waiters r ++ [t])).Warded := by
  have front : p.Front t f := ⟨(base_inside stage).trans top, fun g other => by simp_all⟩
  have absent : t ∉ p.waiters r := fun member => by
    obtain ⟨g, _, _, top', waiting, _⟩ := warded.queued member
    obtain rfl : f = g := Option.some.inj (top.symm.trans top')
    simp [guards] at waiting
  have holds : ∀ u g, (p.ward f r (.waiting body value) (p.owner r) (p.waiters r ++ [t])).Holds u g r ↔
      p.Holds u g r := by
    intro u g
    by_cases same : g = f
    · subst same
      constructor
      · rintro ⟨on, held | ⟨_, _, missing⟩⟩
        · simp at held
        · obtain rfl : u = t := warded.apart (.inl on) (.inl front.onChain)
          simp at missing
      · intro holding
        exact absurd rfl (ne_of_holds guards rfl holding)
    · unfold Holds
      rw [owner_ward_self, waiters_ward_self, guard_ward_ne same]
      constructor
      · rintro ⟨on, held | ⟨waiting, owns, missing⟩⟩
        · exact ⟨on, .inl held⟩
        · exact ⟨on, .inr ⟨waiting, owns, fun member => missing (List.mem_append_left _ member)⟩⟩
      · rintro ⟨on, held | ⟨⟨body', value', waiting⟩, owns, missing⟩⟩
        · exact ⟨on, .inl held⟩
        · refine ⟨on, .inr ⟨⟨body', value', waiting⟩, owns, ?_⟩⟩
          rw [List.mem_append, List.mem_singleton]
          rintro (member | rfl)
          · exact missing member
          -- A waiting guard of the task itself would be its top, and that has not asked yet.
          · obtain ⟨top', rests⟩ := warded.top_of_holds
              ⟨on, .inr ⟨⟨body', value', waiting⟩, owns, missing⟩⟩ waiting
            exact same (front.eq_top top' rests)
  refine warded.ward front guards (by simp) (by simp) (fun _ _ _ => rfl) ?_ ?_ ?_ ?_
    (fun nobody => absurd nobody owned) ?_
  · intro u owns
    obtain ⟨g, having⟩ := warded.owned owns
    exact ⟨g, (holds u g).2 having⟩
  · intro u v g h first second
    exact warded.alone ((holds u g).1 first) ((holds v h).1 second)
  · intro g body' value' waiting
    by_cases same : g = f
    · subst same
      exact ⟨t, top, .inr (.inr stage), .inl (by simp)⟩
    · rw [guard_ward_ne same] at waiting
      obtain ⟨u, top', rests, place⟩ := warded.parked waiting
      exact ⟨u, top', rests, place.imp (List.mem_append_left _) id⟩
  · intro u member
    rcases List.mem_append.1 member with old | new
    · obtain ⟨g, body', value', top', waiting, stage'⟩ := warded.queued old
      refine ⟨g, body', value', top', ?_, stage'⟩
      rwa [guard_ward_ne]
      rintro rfl
      simp [guards] at waiting
    · obtain rfl := List.mem_singleton.1 new
      exact ⟨f, body, value, top, guard_ward_self, .inr (.inr stage), by simp [stage]⟩
  · refine List.nodup_append.2 ⟨warded.nodup r, by simp, ?_⟩
    rintro u member v inNew rfl
    exact absent (List.mem_singleton.1 inNew ▸ member)

/-- A guard that was handed its resource is woken and holds it from then on. -/
theorem enter (warded : p.Warded) (front : p.Front t f) {body : FrameId} {value : V}
    (guards : p.guard f = some (r, .waiting body value)) (owns : p.owner r = some t)
    (absent : t ∉ p.waiters r) :
    (p.ward f r .held (p.owner r) (p.waiters r)).Warded := by
  have holds : ∀ u g, (p.ward f r .held (p.owner r) (p.waiters r)).Holds u g r ↔
      p.Holds u g r := by
    intro u g
    unfold Holds
    rw [owner_ward_self, waiters_ward_self]
    by_cases same : g = f
    · subst same
      constructor
      · rintro ⟨on, _⟩
        obtain rfl : u = t := warded.apart (.inl on) (.inl front.onChain)
        exact ⟨on, .inr ⟨⟨body, value, guards⟩, owns, absent⟩⟩
      · rintro ⟨on, _⟩
        exact ⟨on, .inl guard_ward_self⟩
    · rw [guard_ward_ne same]
      rfl
  refine warded.ward front guards (by simp) (fun _ => owns) (fun _ _ _ => rfl) ?_ ?_ ?_ ?_
    warded.free (warded.nodup r)
  · intro u owns'
    obtain ⟨g, having⟩ := warded.owned owns'
    exact ⟨g, (holds u g).2 having⟩
  · intro u v g h first second
    exact warded.alone ((holds u g).1 first) ((holds v h).1 second)
  · intro g body' value' waiting
    have other : g ≠ f := by
      rintro rfl
      simp at waiting
    rw [guard_ward_ne other] at waiting
    exact warded.parked waiting
  · intro u member
    obtain ⟨g, body', value', top, waiting, stage⟩ := warded.queued member
    refine ⟨g, body', value', top, ?_, stage⟩
    rwa [guard_ward_ne]
    rintro rfl
    have on : p.OnChain u g := .of_base ((base_rests stage.1).trans top)
    obtain rfl : u = t := warded.apart (.inl on) (.inl front.onChain)
    exact absent member

/-- A guard lets go of its resource, which goes to the task that has waited longest. -/
theorem letGo (warded : p.Warded) (front : p.Front t f) (guards : p.guard f = some (r, .held)) :
    (p.ward f r .released (p.waiters r).head? (p.waiters r).tail).Warded := by
  have mine : p.Holds t f r := ⟨front.onChain, .inl guards⟩
  have owns : p.owner r = some t := by
    obtain ⟨u, on, owns⟩ := warded.held guards
    obtain rfl : u = t := warded.apart (.inl on) (.inl front.onChain)
    exact owns
  have notHeld : ∀ g, g ≠ f → p.guard g ≠ some (r, .held) := fun g other held => by
    obtain ⟨u, on, _⟩ := warded.held held
    exact other (warded.alone ⟨on, .inl held⟩ mine)
  have guard : ∀ {g body value},
      (p.ward f r .released (p.waiters r).head? (p.waiters r).tail).guard g =
        some (r, .waiting body value) ↔ p.guard g = some (r, .waiting body value) := by
    intro g body value
    by_cases same : g = f
    · subst same
      simp [guards]
    · rw [guard_ward_ne same]
  -- Whoever has the resource next is the oldest waiter, at the top of its chain.
  have next : ∀ u g, (p.ward f r .released (p.waiters r).head? (p.waiters r).tail).Holds u g r →
      (p.waiters r).head? = some u ∧ p.top u = some g := by
    rintro u g ⟨on, held | ⟨⟨body, value, waiting⟩, owner, _⟩⟩
    · by_cases same : g = f
      · subst same
        simp at held
      · exact absurd ((guard_ward_ne same).symm.trans held) (notHeld g same)
    · rw [owner_ward_self] at owner
      obtain ⟨v, top, rests, _⟩ := warded.parked (guard.1 waiting)
      obtain rfl : v = u :=
        warded.apart (.inl (.of_base ((base_rests rests).trans top))) (.inl on)
      exact ⟨owner, top⟩
  refine warded.ward front guards (by simp) (by simp) (fun g other held => absurd held (notHeld g other))
    ?_ ?_ ?_ ?_ (fun nobody => by simp [List.head?_eq_none_iff.1 nobody])
    ((warded.nodup r).sublist (List.tail_sublist _))
  · intro u first
    obtain ⟨rest, line⟩ := List.head?_eq_some_iff.1 first
    obtain ⟨g, body, value, top, waiting, stage⟩ := warded.queued (t := u) (r := r) (by simp [line])
    have on : p.OnChain u g := .of_base ((base_rests stage.1).trans top)
    have distinct := warded.nodup r
    rw [line, List.nodup_cons] at distinct
    refine ⟨g, on, .inr ⟨⟨body, value, guard.2 waiting⟩, owner_ward_self.trans first, ?_⟩⟩
    rw [waiters_ward_self, line]
    exact distinct.1
  · intro u v g h first second
    obtain ⟨head, top⟩ := next u g first
    obtain ⟨head', top'⟩ := next v h second
    obtain rfl : u = v := Option.some.inj (head.symm.trans head')
    exact Option.some.inj (top.symm.trans top')
  · intro g body value waiting
    obtain ⟨u, top, rests, place⟩ := warded.parked (guard.1 waiting)
    refine ⟨u, top, rests, ?_⟩
    rcases place with member | owner
    · obtain ⟨first, rest, line⟩ := List.exists_cons_of_ne_nil (List.ne_nil_of_mem member)
      rw [line] at member ⊢
      rcases List.mem_cons.1 member with rfl | later
      · exact .inr rfl
      · exact .inl later
    · obtain rfl : t = u := Option.some.inj (owns.symm.trans owner)
      obtain rfl := front.eq_top top rests
      simp at waiting
  · intro u member
    obtain ⟨g, body, value, top, waiting, rests, _⟩ := warded.queued (List.mem_of_mem_tail member)
    refine ⟨g, body, value, top, guard.2 waiting, rests, fun _ first => ?_⟩
    obtain ⟨rest, line⟩ := List.head?_eq_some_iff.1 first
    have distinct := warded.nodup r
    rw [line, List.nodup_cons] at distinct
    exact distinct.1 (by simpa [line] using member)

end Warded

end Ward

end Picture

end Tasking
