import Tasking.Proofs.Wards

/-! # Runs that move along chains

A run takes up the frame at the top of its chain, leaves it for its caller, puts a frame on top,
or unwinds to a frame below.  None of this changes an owner.  `Warded.move` says what each of
these moves has to respect: a guard that is engaged stays on the chain, and a task in line for a
resource does not run.
-/

namespace Tasking.Picture

variable {V : Type} {p : Picture V} {t : TaskId} {top : Option FrameId} {stage : Option Stage}

theorem Holds.engaged {u : TaskId} {f : FrameId} {r : ResourceId} (holds : p.Holds u f r) :
    ∃ phase, p.guard f = some (r, phase) ∧ phase.engaged = true := by
  rcases holds with ⟨_, held | ⟨⟨body, value, waiting⟩, _⟩⟩
  · exact ⟨_, held, rfl⟩
  · exact ⟨_, waiting, rfl⟩

/-- A run may go to any place that keeps the engaged guards on its chain. -/
theorem Warded.move (warded : p.Warded)
    (uses : ∀ f, (p.move t top stage).Uses t f → p.Uses t f ∨ p.Idle f)
    (chain : ∀ f, (p.move t top stage).OnChain t f → p.OnChain t f ∨
      ∀ r phase, p.guard f = some (r, phase) → phase.engaged = false)
    (known : ∀ f, top = some f → p.known f)
    (inside : ∀ f, stage = some (.inside f) → p.known f ∧
      ∃ g, top = some g ∧ (g = f ∨ p.caller g = some f ∨ p.caller g = p.caller f))
    (path : ∀ doomed target, stage = some (.unwinding doomed target) →
      (doomed ++ [target]).IsChain (fun f g => p.caller f = some g) ∧ p.known target)
    (beneath : ∀ h f r phase, p.Idle h → (p.move t top stage).Uses t h →
      p.caller h = some f → p.guard f = some (r, phase) → phase = .held)
    (kept : ∀ f r phase, p.OnChain t f → p.guard f = some (r, phase) → phase.engaged = true →
      (p.move t top stage).OnChain t f)
    (parked : ∀ f r body value, p.top t = some f → Rests (p.stage t) f →
      p.guard f = some (r, .waiting body value) → top = some f ∧ Rests stage f)
    (queued : ∀ r, t ∈ p.waiters r → top = p.top t ∧
      ∀ f, top = some f → Rests stage f ∧ (stage = some .next → p.owner r ≠ some t))
    (pushed : ∀ g h r phase, stage = some (.inside g) → top = some h → h ≠ g →
      p.guard h = some (r, phase) → ∃ body, phase = .start body) :
    (p.move t top stage).Warded := by
  have holds : ∀ u g r, (p.move t top stage).Holds u g r ↔ p.Holds u g r := by
    intro u g r
    by_cases same : u = t
    · subst same
      constructor
      · intro having
        obtain ⟨phase, guard, engaged⟩ := having.engaged
        refine ⟨(chain g having.1).resolve_right fun idle => ?_, having.2⟩
        simp [idle r phase guard] at engaged
      · intro having
        obtain ⟨phase, guard, engaged⟩ := having.engaged
        exact ⟨kept g r phase having.1 guard engaged, having.2⟩
    · exact and_congr (onChain_move_ne same top stage g) Iff.rfl
  refine ⟨warded.toWoven.move uses known inside path, ?_, ?_, ?_, ?_, ?_, ?_, ?_, ?_, ?_, ?_⟩
  · intro f r held
    obtain ⟨u, on, owns⟩ := warded.held held
    exact ⟨u, ((holds u f r).2 ⟨on, .inl held⟩).1, owns⟩
  · intro u h f r phase use link guard
    by_cases same : u = t
    · subst same
      rcases uses h use with old | idle
      · exact warded.beneath old link guard
      · exact beneath h f r phase idle use link guard
    · exact warded.beneath ((uses_move_ne same top stage h).1 use) link guard
  · exact warded.called
  · intro u r owns
    obtain ⟨g, having⟩ := warded.owned owns
    exact ⟨g, (holds u g r).2 having⟩
  · intro u v g h r first second
    exact warded.alone ((holds u g r).1 first) ((holds v h r).1 second)
  · intro f r body value waiting
    obtain ⟨u, found, rests, place⟩ := warded.parked waiting
    refine ⟨u, ?_, ?_, place⟩
    · by_cases same : u = t
      · subst same
        simpa [Picture.move] using (parked f r body value found rests waiting).1
      · simpa [Picture.move, same] using found
    · by_cases same : u = t
      · subst same
        simpa [Picture.move] using (parked f r body value found rests waiting).2
      · simpa [Picture.move, same] using rests
  · intro u r member
    obtain ⟨f, body, value, found, waiting, place⟩ := warded.queued member
    refine ⟨f, body, value, ?_, waiting, ?_⟩
    · by_cases same : u = t
      · subst same
        simpa [Picture.move] using (queued r member).1.trans found
      · simpa [Picture.move, same] using found
    · by_cases same : u = t
      · subst same
        obtain ⟨keeps, stays⟩ := queued r member
        simpa [Picture.move] using stays f (keeps.trans found)
      · simpa [Picture.move, same] using place
  · exact warded.free
  · exact warded.nodup
  · intro u g h r phase at' found different guard
    by_cases same : u = t
    · subst same
      exact pushed g h r phase (by simpa [Picture.move] using at')
        (by simpa [Picture.move] using found) different guard
    · exact warded.pushed (t := u) (by simpa [Picture.move, same] using at')
        (by simpa [Picture.move, same] using found) different guard

/-! ## Where a chain begins after a move -/

/-- A run that does not unwind. -/
def Plain (stage : Option Stage) : Prop := ∀ doomed target, stage ≠ some (.unwinding doomed target)

theorem base_plain (plain : Plain (p.stage t)) : p.base t = p.top t := base_of_top plain

theorem onChain_plain (plain : Plain (p.stage t)) {f : FrameId} :
    p.OnChain t f ↔ ∃ b, p.top t = some b ∧ Reaches p.caller b f := by
  unfold OnChain
  rw [base_plain plain]

theorem onChain_move_plain (plain : Plain stage) {f : FrameId} :
    (p.move t top stage).OnChain t f ↔ ∃ b, top = some b ∧ Reaches p.caller b f := by
  rw [onChain_plain (p := p.move t top stage) (by simpa [Picture.move] using plain)]
  simp [Picture.move]

theorem stage_move_self : (p.move t top stage).stage t = stage := by simp [Picture.move]

theorem onChain_unwinding {doomed : List FrameId} {target f : FrameId}
    (at' : p.stage t = some (.unwinding doomed target)) :
    p.OnChain t f ↔ ∃ b, (doomed ++ [target]).head? = some b ∧ Reaches p.caller b f := by
  simp [OnChain, base, at']

theorem onChain_move_unwinding {doomed : List FrameId} {target f : FrameId} :
    (p.move t top (some (.unwinding doomed target))).OnChain t f ↔
      ∃ b, (doomed ++ [target]).head? = some b ∧ Reaches p.caller b f :=
  onChain_unwinding stage_move_self

/-- Nothing is engaged at this frame. -/
def Slack (p : Picture V) (f : FrameId) : Prop :=
  ∀ r phase, p.guard f = some (r, phase) → phase.engaged = false

theorem Slack.not_waiting {f : FrameId} (slack : p.Slack f) {r : ResourceId} {body : FrameId}
    {value : V} : p.guard f ≠ some (r, .waiting body value) := fun waiting => by
  simpa [Phase.engaged] using slack _ _ waiting

theorem Idle.slack {f : FrameId} (idle : p.Idle f) : p.Slack f := fun r phase guard => by
  obtain ⟨body, rfl⟩ := idle.unresumed guard
  rfl

/-- A run that stays at the top of its chain uses no other frames than before. -/
theorem uses_turn (before : Plain (p.stage t)) (after : Plain stage)
    (inside : ∀ f, stage = some (.inside f) → p.top t = some f) {u : TaskId} {f : FrameId}
    (uses : (p.move t (p.top t) stage).Uses u f) : p.Uses u f := by
  by_cases same : u = t
  · subst same
    rcases uses with on | at'
    · exact .inl ((onChain_plain before).2 ((onChain_move_plain after).1 on))
    · rw [stage_move_self] at at'
      exact .inl (.of_base ((base_plain before).trans (inside f at')))
  · exact (uses_move_ne same _ _ f).1 uses

namespace Warded

/-- A task in line for a resource waits at its top. -/
theorem not_queued (warded : p.Warded) (slack : ∀ f, p.top t = some f → p.Slack f)
    (r : ResourceId) : t ∉ p.waiters r := fun member => by
  obtain ⟨f, body, value, top, waiting, _⟩ := warded.queued member
  exact (slack f top).not_waiting waiting

theorem not_queued_of_unwinding (warded : p.Warded) {doomed : List FrameId} {target : FrameId}
    (at' : p.stage t = some (.unwinding doomed target)) (r : ResourceId) : t ∉ p.waiters r :=
  fun member => by
    obtain ⟨f, _, _, _, _, rests, _⟩ := warded.queued member
    simp [Rests, at'] at rests

/-- A run that goes on next is at no guard that waits behind its own task. -/
theorem not_queued_of_next (warded : p.Warded) (at' : p.stage t = some .next) {r : ResourceId}
    (owns : p.owner r = some t) : t ∉ p.waiters r := fun member => by
  obtain ⟨f, _, _, _, _, _, foreign⟩ := warded.queued member
  exact foreign at' owns

/-! ## Moves -/

/-- A run that stays at the top of its chain. -/
theorem turn (warded : p.Warded) (before : Plain (p.stage t)) (after : Plain stage)
    (inside : ∀ f, stage = some (.inside f) → p.top t = some f)
    (parked : ∀ f r body value, p.top t = some f → Rests (p.stage t) f →
      p.guard f = some (r, .waiting body value) → Rests stage f)
    (queued : ∀ r f, t ∈ p.waiters r → p.top t = some f →
      Rests stage f ∧ (stage = some .next → p.owner r ≠ some t)) :
    (p.move t (p.top t) stage).Warded := by
  have chain : ∀ f, (p.move t (p.top t) stage).OnChain t f ↔ p.OnChain t f := fun f =>
    (onChain_move_plain after).trans (onChain_plain before).symm
  have uses : ∀ f, (p.move t (p.top t) stage).Uses t f → p.Uses t f :=
    fun f => uses_turn before after inside
  refine warded.move (fun f use => .inl (uses f use)) (fun f on => .inl ((chain f).1 on))
    (fun f found => warded.top_known found) (fun f at' => ⟨warded.top_known (inside f at'), f, inside f at', .inl rfl⟩)
    (fun doomed target at' => absurd at' (after doomed target))
    (fun h f r phase idle use => absurd (uses h use) (idle.unused t))
    (fun f r phase on _ _ => (chain f).2 on)
    (fun f r body value found rests waiting => ⟨found, parked f r body value found rests waiting⟩)
    (fun r member => ⟨rfl, fun f => queued r f member⟩) ?_
  intro g h r phase at' found different
  exact absurd (Option.some.inj (found.symm.trans (inside g at'))) different

/-- The top of a chain is resumed. -/
theorem resume (warded : p.Warded) {f : FrameId} (at' : p.stage t = some .next)
    (found : p.top t = some f) : (p.move t (p.top t) (some (.inside f))).Warded := by
  refine warded.turn (by simp [Plain, at']) (by simp [Plain]) (fun g same => ?_) ?_ ?_
  · obtain rfl : f = g := by simpa using same
    exact found
  · intro g r body value found' _ _
    obtain rfl : f = g := Option.some.inj (found.symm.trans found')
    exact .inr (.inr rfl)
  · intro r g _ found'
    obtain rfl : f = g := Option.some.inj (found.symm.trans found')
    exact ⟨.inr (.inr rfl), by simp⟩

/-- A task that does not wait behind itself is taken up. -/
theorem begin (warded : p.Warded) (idle : p.stage t = none)
    (absent : ∀ r, p.owner r = some t → t ∉ p.waiters r) : (p.move t (p.top t) (some .next)).Warded :=
  warded.turn (by simp [Plain, idle]) (by simp [Plain]) (by simp) (fun _ _ _ _ _ _ _ => .inr (.inl rfl))
    fun r _ member _ => ⟨.inr (.inl rfl), fun _ owns => absent r owns member⟩

/-- The run of a task is over for now. -/
theorem park (warded : p.Warded) {g : FrameId} (at' : p.stage t = some (.inside g)) :
    (p.move t (p.top t) none).Warded :=
  warded.turn (by simp [Plain, at']) (by simp [Plain]) (by simp) (fun _ _ _ _ _ _ _ => .inl rfl)
    fun _ _ _ _ => ⟨.inl rfl, by simp⟩

/-- A run goes on at the top of its chain. -/
theorem next (warded : p.Warded) {g : FrameId} (at' : p.stage t = some (.inside g))
    (slack : ∀ f, p.top t = some f → p.Slack f) : (p.move t (p.top t) (some .next)).Warded :=
  warded.turn (by simp [Plain, at']) (by simp [Plain]) (by simp) (fun _ _ _ _ _ _ _ => .inr (.inl rfl))
    fun r f member => absurd member (warded.not_queued slack r)

/-- A frame that is at its end leaves the chain. -/
theorem pop (warded : p.Warded) {f : FrameId} (at' : p.stage t = some (.inside f))
    (found : p.top t = some f) (slack : p.Slack f) (after : stage = none ∨ stage = some .next) :
    (p.move t (p.caller f) stage).Warded := by
  have plain : Plain stage := by
    rcases after with rfl | rfl <;> simp [Plain]
  have absent := warded.not_queued (t := t) fun g found' => by
    obtain rfl : f = g := Option.some.inj (found.symm.trans found')
    exact slack
  have before : ∀ {g}, p.OnChain t g ↔ Reaches p.caller f g := fun {g} => by
    rw [onChain_plain (by simp [Plain, at'])]
    simp [found]
  have chain : ∀ g, (p.move t (p.caller f) stage).OnChain t g → p.OnChain t g := fun g on => by
    obtain ⟨b, link, way⟩ := (onChain_move_plain plain).1 on
    exact before.2 (.head link way)
  have uses : ∀ g, (p.move t (p.caller f) stage).Uses t g → p.Uses t g := by
    rintro g (on | inside)
    · exact .inl (chain g on)
    · rw [stage_move_self] at inside
      rcases after with rfl | rfl <;> simp at inside
  refine warded.move (fun g use => .inl (uses g use)) (fun g on => .inl (chain g on))
    (fun g link => warded.caller_known link) ?_ (fun doomed target => ?_)
    (fun h g r phase idle use => absurd (uses h use) (idle.unused t)) ?_ ?_
    (fun r member => absurd member (absent r)) ?_
  · rintro g rfl
    simp at after
  · exact fun inside => absurd inside (plain doomed target)
  · intro g r phase on guard engaged
    rcases (before.1 on).cases_caller with rfl | ⟨c, link, way⟩
    · simp [slack r phase guard] at engaged
    · exact (onChain_move_plain plain).2 ⟨c, link, way⟩
  · intro g r body value found' _ waiting
    obtain rfl : f = g := Option.some.inj (found.symm.trans found')
    exact absurd waiting slack.not_waiting
  · rintro g h r phase rfl
    simp at after

/-- A run begins to cancel the frames above a target. -/
theorem leap (warded : p.Warded) {doomed : List FrameId} {target : FrameId}
    (plain : Plain (p.stage t)) (known : p.known target)
    (first : (doomed ++ [target]).head? = p.top t)
    (path : (doomed ++ [target]).IsChain fun f g => p.caller f = some g)
    (parted : ∀ f r body value, p.top t = some f → p.guard f ≠ some (r, .waiting body value)) :
    (p.move t (p.top t) (some (.unwinding doomed target))).Warded := by
  have chain : ∀ f, (p.move t (p.top t) (some (.unwinding doomed target))).OnChain t f ↔
      p.OnChain t f := fun f => by
    rw [onChain_move_unwinding, first, onChain_plain plain]
  have uses : ∀ f, (p.move t (p.top t) (some (.unwinding doomed target))).Uses t f →
      p.Uses t f := by
    rintro f (on | inside)
    · exact .inl ((chain f).1 on)
    · simp [Picture.move] at inside
  refine warded.move (fun f use => .inl (uses f use)) (fun f on => .inl ((chain f).1 on))
    (fun f found => warded.top_known found) (by simp) ?_
    (fun h f r phase idle use => absurd (uses h use) (idle.unused t))
    (fun f r phase on _ _ => (chain f).2 on)
    (fun f r body value found _ waiting => absurd waiting (parted f r body value found))
    (fun r member => ?_) (by simp)
  · rintro doomed' target' ⟨⟩
    exact ⟨path, known⟩
  · obtain ⟨f, body, value, found, waiting, _⟩ := warded.queued member
    exact absurd waiting (parted f r body value found)

/-- A cancelled frame leaves the part of the chain that counts. -/
theorem drop (warded : p.Warded) {f : FrameId} {doomed : List FrameId} {target : FrameId}
    (at' : p.stage t = some (.unwinding (f :: doomed) target)) (slack : p.Slack f) :
    (p.move t (p.top t) (some (.unwinding doomed target))).Warded := by
  obtain ⟨path, known⟩ := warded.path at'
  obtain ⟨b, first⟩ : ∃ b, (doomed ++ [target]).head? = some b := by cases doomed <;> simp
  obtain ⟨rest, line⟩ := List.head?_eq_some_iff.1 first
  rw [List.cons_append, line] at path
  obtain ⟨link, path⟩ := List.isChain_cons_cons.1 path
  have absent := warded.not_queued_of_unwinding at'
  have before : ∀ {g}, p.OnChain t g ↔ Reaches p.caller f g := fun {g} => by
    rw [onChain_unwinding at']
    simp
  have after : ∀ {g}, (p.move t (p.top t) (some (.unwinding doomed target))).OnChain t g ↔
      Reaches p.caller b g := fun {g} => by
    rw [onChain_move_unwinding, first]
    simp
  have chain : ∀ g, (p.move t (p.top t) (some (.unwinding doomed target))).OnChain t g →
      p.OnChain t g := fun g on => before.2 (.head link (after.1 on))
  have uses : ∀ g, (p.move t (p.top t) (some (.unwinding doomed target))).Uses t g →
      p.Uses t g := by
    rintro g (on | inside)
    · exact .inl (chain g on)
    · simp [Picture.move] at inside
  refine warded.move (fun g use => .inl (uses g use)) (fun g on => .inl (chain g on))
    (fun g found => warded.top_known found) (by simp) ?_
    (fun h g r phase idle use => absurd (uses h use) (idle.unused t)) ?_ ?_
    (fun r member => absurd member (absent r)) (by simp)
  · rintro doomed' target' ⟨⟩
    exact ⟨line ▸ path, known⟩
  · intro g r phase on guard engaged
    rcases (before.1 on).cases_caller with rfl | ⟨c, link', way⟩
    · simp [slack r phase guard] at engaged
    · obtain rfl : b = c := Option.some.inj (link.symm.trans link')
      exact after.2 way
  · rintro g r body value _ (idle | next | inside)
    · simp [at'] at idle
    · simp [at'] at next
    · simp [at'] at inside

/-- An unwind that has cancelled everything above its target goes on there. -/
theorem land (warded : p.Warded) {target : FrameId}
    (at' : p.stage t = some (.unwinding [] target)) :
    (p.move t (some target) (some .next)).Warded := by
  have absent := warded.not_queued_of_unwinding at'
  have chain : ∀ g, (p.move t (some target) (some .next)).OnChain t g ↔ p.OnChain t g := fun g => by
    rw [onChain_move_plain (by simp [Plain]), onChain_unwinding at']
    simp
  have uses : ∀ g, (p.move t (some target) (some .next)).Uses t g → p.Uses t g := by
    rintro g (on | inside)
    · exact .inl ((chain g).1 on)
    · simp [Picture.move] at inside
  refine warded.move (fun g use => .inl (uses g use)) (fun g on => .inl ((chain g).1 on)) ?_ (by simp)
    (by simp) (fun h g r phase idle use => absurd (uses h use) (idle.unused t))
    (fun g r phase on _ _ => (chain g).2 on) ?_ (fun r member => absurd member (absent r)) (by simp)
  · rintro g ⟨⟩
    exact (warded.path at').2
  · rintro g r body value _ (idle | next | inside)
    · simp [at'] at idle
    · simp [at'] at next
    · simp [at'] at inside

/-- A run that unwinds may leave anything on top meanwhile. -/
theorem redirect (warded : p.Warded) {doomed : List FrameId} {target f : FrameId}
    (at' : p.stage t = some (.unwinding doomed target)) (known : p.known f) :
    (p.move t (some f) (p.stage t)).Warded := by
  have absent := warded.not_queued_of_unwinding at'
  have chain : ∀ g, (p.move t (some f) (p.stage t)).OnChain t g ↔ p.OnChain t g := fun g => by
    rw [at', onChain_move_unwinding, onChain_unwinding at']
  have uses : ∀ g, (p.move t (some f) (p.stage t)).Uses t g → p.Uses t g := by
    rintro g (on | inside)
    · exact .inl ((chain g).1 on)
    · simp [Picture.move, at'] at inside
  refine warded.move (fun g use => .inl (uses g use)) (fun g on => .inl ((chain g).1 on)) ?_
    (by simp [at']) ?_ (fun h g r phase idle use => absurd (uses h use) (idle.unused t))
    (fun g r phase on _ _ => (chain g).2 on) ?_ (fun r member => absurd member (absent r))
    (by simp [at'])
  · rintro g ⟨⟩
    exact known
  · intro doomed' target' same
    exact warded.path same
  · rintro g r body value _ (idle | next | inside)
    · simp [at'] at idle
    · simp [at'] at next
    · simp [at'] at inside

/-- A running frame puts an idle frame, or itself, on top. -/
theorem push (warded : p.Warded) {f g : FrameId} (at' : p.stage t = some (.inside g))
    (fresh : p.Idle f ∨ f = g)
    (place : f = g ∨ p.caller f = some g ∨ p.caller f = p.caller g)
    (runs : ∀ r phase, p.guard g = some (r, phase) → phase = .held ∧ p.caller f = some g) :
    (p.move t (some f) (p.stage t)).Warded := by
  have plain : Plain (p.stage t) := by simp [Plain, at']
  obtain ⟨running, h, found, place'⟩ := warded.inside at'
  have before : ∀ {x}, p.OnChain t x ↔ Reaches p.caller h x := fun {x} => by
    rw [onChain_plain plain]
    simp [found]
  have after : ∀ {x}, (p.move t (some f) (p.stage t)).OnChain t x ↔ Reaches p.caller f x :=
    fun {x} => by
      rw [onChain_move_plain plain]
      simp
  have below : ∀ {c x}, p.caller g = some c → Reaches p.caller c x → p.OnChain t x := by
    intro c x link way
    obtain ⟨b, base, on⟩ := warded.onChain_caller at' link
    exact ⟨b, base, on.trans way⟩
  have cases_g : ∀ {x}, Reaches p.caller g x → x = g ∨ p.OnChain t x := by
    intro x way
    rcases way.cases_caller with rfl | ⟨c, link, rest⟩
    · exact .inl rfl
    · exact .inr (below link rest)
  have cases_f : ∀ {x}, Reaches p.caller f x → x = f ∨ x = g ∨ p.OnChain t x := by
    intro x way
    rcases place with rfl | above | beside
    · exact (cases_g way).imp id .inr
    · rcases way.cases_caller with rfl | ⟨c, link, rest⟩
      · exact .inl rfl
      · obtain rfl : g = c := Option.some.inj (above.symm.trans link)
        exact .inr (cases_g rest)
    · rcases way.cases_caller with rfl | ⟨c, link, rest⟩
      · exact .inl rfl
      · exact .inr (.inr (below (beside.symm.trans link) rest))
  have over_g : p.OnChain t g ∨ p.Slack g := by
    by_cases slack : p.Slack g
    · exact .inr slack
    · simp only [Slack, not_forall] at slack
      obtain ⟨r, phase, guard, _⟩ := slack
      obtain ⟨rfl, _⟩ := runs r phase guard
      obtain ⟨u, on, _⟩ := warded.held guard
      obtain rfl : u = t := warded.apart (.inl on) (.inr at')
      exact .inl on
  have chain : ∀ x, (p.move t (some f) (p.stage t)).OnChain t x → p.OnChain t x ∨ p.Slack x := by
    intro x on
    rcases cases_f (after.1 on) with rfl | rfl | old
    · rcases fresh with idle | rfl
      · exact .inr idle.slack
      · exact over_g
    · exact over_g
    · exact .inl old
  have uses : ∀ x, (p.move t (some f) (p.stage t)).Uses t x → p.Uses t x ∨ p.Idle x := by
    rintro x (on | inside)
    · rcases cases_f (after.1 on) with rfl | rfl | old
      · rcases fresh with idle | rfl
        · exact .inr idle
        · exact .inl (.inr at')
      · exact .inl (.inr at')
      · exact .inl (.inl old)
    · exact .inl (.inr (stage_move_self.symm.trans inside))
  have onwards : ∀ {x c}, p.caller g = some c → Reaches p.caller c x → Reaches p.caller f x := by
    intro x c link way
    rcases place with rfl | above | beside
    · exact .head link way
    · exact .head above (.head link way)
    · exact .head (beside.trans link) way
  have through : ∀ {x r phase}, Reaches p.caller g x → p.guard x = some (r, phase) →
      Reaches p.caller f x := by
    intro x r phase way guard
    rcases way.cases_caller with rfl | ⟨c, link, rest⟩
    · exact .single (runs r phase guard).2
    · exact onwards link rest
  have parted : ∀ {r phase}, p.guard h = some (r, phase) → phase.engaged = true → h = g := by
    intro r phase guard engaged
    by_contra different
    obtain ⟨body, rfl⟩ := warded.pushed at' found different guard
    simp [Phase.engaged] at engaged
  have absent : ∀ r, t ∉ p.waiters r := fun r member => by
    obtain ⟨x, body, value, found', waiting, _⟩ := warded.queued member
    obtain rfl : h = x := Option.some.inj (found.symm.trans found')
    obtain rfl := parted waiting rfl
    simpa using (runs r _ waiting).1
  refine warded.move uses chain ?_ ?_ (fun doomed target same => absurd same (plain doomed target)) ?_
    ?_ ?_ (fun r member => absurd member (absent r)) ?_
  · rintro x ⟨⟩
    rcases fresh with idle | rfl
    · exact idle.known
    · exact running
  · intro x inside
    obtain rfl : g = x := by simpa [at'] using inside
    exact ⟨running, f, rfl, place⟩
  · intro x k r phase idle use link guard
    have isTop : x = f := by
      rcases use with on | inside
      · rcases cases_f (after.1 on) with same | rfl | old
        · exact same
        · exact absurd (.inr at') (idle.unused t)
        · exact absurd (.inl old) (idle.unused t)
      · exact absurd (.inr (stage_move_self.symm.trans inside)) (idle.unused t)
    subst isTop
    rcases place with rfl | above | beside
    · exact absurd (.inr at') (idle.unused t)
    · obtain rfl : g = k := Option.some.inj (above.symm.trans link)
      exact (runs r phase guard).1
    · exact warded.beneath (.inr at') (beside.symm.trans link) guard
  · intro x r phase on guard engaged
    rw [after]
    rcases (before.1 on).cases_caller with rfl | ⟨c, link, rest⟩
    · exact parted guard engaged ▸ through .refl (parted guard engaged ▸ guard)
    · rcases place' with rfl | above | beside
      · exact onwards link rest
      · obtain rfl : g = c := Option.some.inj (above.symm.trans link)
        exact through rest guard
      · exact onwards (beside.symm.trans link) rest
  · intro x r body value found' _ waiting
    obtain rfl : h = x := Option.some.inj (found.symm.trans found')
    obtain rfl := parted waiting rfl
    simpa using (runs r _ waiting).1
  · intro x y r phase inside top' different guard
    obtain rfl : g = x := by simpa [at'] using inside
    obtain rfl : f = y := by simpa using top'
    exact (fresh.resolve_right different).unresumed guard

end Warded

end Tasking.Picture
