import Mathlib.Tactic.IntervalCases
import Tasking.Proofs.Steps

/-! # Mutual exclusion

A guard that has its resource keeps it through all steps but one: its own resume after it called
its body.  So while frames above it run, the owner stays the same and no frame above another guard
of the resource is resumed.
-/

namespace Tasking

variable {V C : Type}

open Picture

namespace Picture

variable {p q p' : Picture V} {t : TaskId} {f g : FrameId} {r : ResourceId}

theorem Warded.owner_of_holds (warded : p.Warded) (holds : p.Holds t g r) : p.owner r = some t := by
  rcases holds with ⟨on, held | ⟨_, owns, _⟩⟩
  · obtain ⟨u, on', owns⟩ := warded.held held
    obtain rfl : u = t := warded.apart (.inl on') (.inl on)
    exact owns
  · exact owns

/-- A guard that holds its resource does so for the owner. -/
theorem Warded.holds_of_held (warded : p.Warded) (held : p.guard g = some (r, .held))
    (owns : p.owner r = some t) : p.Holds t g r := by
  obtain ⟨u, on, owns'⟩ := warded.held held
  obtain rfl : u = t := Option.some.inj (owns'.symm.trans owns)
  exact ⟨on, .inl held⟩

/-- A guard keeps its resource through a change that does not concern it. -/
theorem Neutral.holds {runner : Option TaskId} (neutral : Neutral runner p p') (warded : p.Warded)
    (known : p.known g) (holds : p.Holds t g r) : p'.Holds t g r := by
  have warded' := neutral.warded warded
  have guard := neutral.guard known
  have owns := warded.owner_of_holds holds
  have owns' : p'.owner r = some t := by rw [neutral.owner, owns]
  rcases holds with ⟨on, held | ⟨⟨body, value, waiting⟩, _, absent⟩⟩
  · exact warded'.holds_of_held (guard.trans held) owns'
  · obtain ⟨top, rests⟩ := warded.top_of_holds ⟨on, .inr ⟨⟨body, value, waiting⟩, owns, absent⟩⟩ waiting
    obtain ⟨u, top', rests', place⟩ := warded'.parked (guard.trans waiting)
    have on' : p'.OnChain u g := .of_base ((base_rests rests').trans top')
    -- The change moves one run at most: either that of `t` and nobody else came to the guard, or
    -- another, and `t` is still there.
    have same : u = t := by
      by_cases moved : some t = runner
      · by_contra other
        have member : u ∈ p.waiters r := by
          rw [neutral.owner, neutral.waiters, owns] at place
          exact place.resolve_right fun same => other (Option.some.inj same).symm
        obtain ⟨h, _, _, before, _, rests₀, _⟩ := warded.queued member
        obtain rfl : h = g := Option.some.inj
          ((neutral.top (fun same => other (Option.some.inj (same.trans moved.symm))) before).symm.trans top')
        exact other (warded.apart (.inl (.of_base ((base_rests rests₀).trans before))) (.inl on))
      · have stays : Rests (p'.stage t) g := neutral.stage moved ▸ rests
        exact warded'.apart (.inl on') (.inl (.of_base ((base_rests stays).trans (neutral.top moved top))))
    subst same
    refine ⟨on', .inr ⟨⟨body, value, guard.trans waiting⟩, owns', ?_⟩⟩
    rwa [neutral.waiters]

theorem Holds.ward {u : TaskId} {r' : ResourceId} {phase : Phase V} {owner : Option TaskId}
    {waiters : List TaskId} (holds : p.Holds u g r) (other : g ≠ f) (keeps : r = r' → owner = p.owner r)
    (absent : r = r' → (∃ body value, p.guard g = some (r, .waiting body value)) →
      u ∉ p.waiters r → u ∉ waiters) : (p.ward f r' phase owner waiters).Holds u g r := by
  obtain ⟨on, kind⟩ := holds
  refine ⟨on, ?_⟩
  rw [guard_ward_ne other]
  refine kind.imp id fun ⟨waiting, owns, missing⟩ => ⟨waiting, ?_⟩
  by_cases same : r = r'
  · subst same
    rw [owner_ward_self, waiters_ward_self]
    exact ⟨(keeps rfl).trans owns, absent rfl waiting missing⟩
  · rw [owner_ward_ne same, waiters_ward_ne same]
    exact ⟨owns, missing⟩

/-- A guard keeps its resource when another frame is resumed, or when it is woken itself. -/
theorem Guarding.holds (guarding : p.Guarding t f q) (warded : p.Warded) (front : p.Front t f)
    {u : TaskId} (holds : p.Holds u g r) (unheld : p.guard g = some (r, .held) → g ≠ f) :
    q.Holds u g r := by
  have owns := warded.owner_of_holds holds
  cases guarding with
  | plain => exact holds
  | settle code =>
    exact holds.ward (Warded.ne_of_holds code rfl holds) (fun same => same ▸ rfl) fun same _ => same ▸ id
  | take code nobody =>
    refine holds.ward (Warded.ne_of_holds code rfl holds) ?_ fun same _ => same ▸ id
    rintro rfl
    simp [owns] at nobody
  | wait code somebody stage top =>
    have other := Warded.ne_of_holds code rfl holds
    refine holds.ward other (fun same => same ▸ rfl) ?_
    rintro rfl ⟨body, value, waiting⟩ missing
    rw [List.mem_append, List.mem_singleton]
    rintro (member | rfl)
    · exact missing member
    · obtain ⟨top', _⟩ := warded.top_of_holds holds waiting
      exact other (Option.some.inj (top'.symm.trans top))
  | @enter r' body value code owns' =>
    by_cases other : g = f
    · subst other
      obtain ⟨on, kind⟩ := holds
      refine ⟨on, .inl ?_⟩
      obtain rfl : r' = r := by
        rcases kind with held | ⟨⟨_, _, waiting⟩, _⟩
        · exact congrArg Prod.fst (Option.some.inj (code.symm.trans held))
        · exact congrArg Prod.fst (Option.some.inj (code.symm.trans waiting))
      exact guard_ward_self
    · exact holds.ward other (fun same => same ▸ rfl) fun same _ => same ▸ id
  | @letGo r' code =>
    have mine : p.Holds t f r' := ⟨front.onChain, .inl code⟩
    have other : g ≠ f := by
      rintro rfl
      obtain ⟨_, held | ⟨⟨_, _, waiting⟩, _⟩⟩ := holds
      · exact unheld held rfl
      · simp [waiting] at code
    have elsewhere : r ≠ r' := by
      rintro rfl
      exact other (warded.alone holds mine)
    exact holds.ward other (fun same => absurd same elsewhere) fun same => absurd same elsewhere

end Picture

namespace Effect

variable {p p' : Picture V} {runner : Option TaskId} {label : Option (TaskId × FrameId)} {t u : TaskId}
  {g : FrameId} {r : ResourceId}

/-- A guard keeps its resource through every step but its own resume after it called its body. -/
theorem holds (effect : Effect p runner label p') (warded : p.Warded) (known : p.known g)
    (holds : p.Holds t g r) (unheld : p.guard g = some (r, .held) → ∀ u, label ≠ some (u, g)) :
    p'.Holds t g r := by
  cases effect with
  | neutral neutral => exact neutral.holds warded known holds
  | @resumed u f top stage q _ mine on before front absent guarding after =>
    have moved := (Picture.Neutral.move fun _ => before).holds warded known holds
    have kept := guarding.holds before front moved fun held same => unheld held u (by rw [same])
    exact after.holds (guarding.warded before front absent) (guarding.known ▸ known) kept

/-- A guard that is resumed after it called its body lets go of its resource, which goes to the task
    that has waited longest.  No guard above it holds anything then. -/
theorem releases (effect : Effect p runner (some (t, g)) p') (warded : p.Warded) (known : p.known g)
    (held : p.guard g = some (r, .held)) :
    p'.guard g = some (r, .released) ∧ p'.owner = Function.update p.owner r (p.waiters r).head? ∧
      p'.waiters = Function.update p.waiters r (p.waiters r).tail ∧ p.Holds t g r ∧
      ∀ {h r'}, p.known h → p.Holds t h r' → h ≠ g → Above p.caller g h := by
  cases effect with
  | @resumed _ _ top stage q _ mine on before front absent guarding after =>
    cases guarding with
    | letGo code =>
      obtain rfl : r = _ := congrArg Prod.fst (Option.some.inj (held.symm.trans code))
      refine ⟨(after.guard known).trans guard_ward_self, after.owner, after.waiters, ⟨on, .inl held⟩, ?_⟩
      intro h r' known' holds other
      obtain ⟨⟨b, base, way⟩, _⟩ := (Picture.Neutral.move fun _ => before).holds warded known' holds
      obtain rfl : g = b := Option.some.inj (front.1.symm.trans base)
      exact Reaches.above way (Ne.symm other)
    | plain code | settle code | take code | wait code | enter code =>
      have code' : p.guard g = _ := code
      simp [held] at code'

/-- A guard that is given an error before it asks, or is refused, changes no owner. -/
theorem refused (effect : Effect p runner (some (t, g)) p') (known : p.known g) {body : FrameId}
    (start : p.guard g = some (r, .start body)) (ended : p'.guard g = some (r, .released)) :
    p'.owner = p.owner ∧ p'.waiters = p.waiters := by
  cases effect with
  | @resumed _ _ top stage q _ mine on before front absent guarding after =>
    have guard := (after.guard (guarding.known ▸ known)).symm.trans ended
    cases guarding with
    | plain code =>
      have code' : p.guard g = none := code
      simp [start] at code'
    | settle code =>
      exact ⟨after.owner.trans (Function.update_eq_self ..), after.waiters.trans (Function.update_eq_self ..)⟩
    | take | wait | enter => simp at guard
    | letGo code =>
      have code' : p.guard g = _ := code
      simp [start] at code'

/-- A guard that has let go stays so, and is not resumed again. -/
theorem released (effect : Effect p runner label p') (known : p.known g)
    (ended : p.guard g = some (r, .released)) :
    p'.guard g = some (r, .released) ∧ ∀ u, label ≠ some (u, g) := by
  have unresumed : ∀ u, label ≠ some (u, g) := by
    rintro u rfl
    cases effect with
    | @resumed _ _ top stage q _ mine on before front absent guarding after =>
      cases guarding with
      | plain code | settle code | take code | wait code | enter code | letGo code =>
        have code' : p.guard g = _ := code
        simp [ended] at code'
  exact ⟨(effect.guard known unresumed).trans ended, unresumed⟩

end Effect

namespace State

variable {st : State V C} {t : TaskId} {x : ExclusiveId} {exclusive : Exclusive V}

theorem mayOpen_owner (found : st.exclusives.get? x = some exclusive)
    (owner : st.owner exclusive.resource = some t) (free : exclusive.inUse = false) :
    st.mayOpen x t = .ok true := by
  simp [mayOpen, bind_ok, exclusive_ok, found, owns_iff.2 owner, free, pure_ok]

end State

namespace Crew

/-- A task owns a resource through a guard: the guard holds the resource, or the task was made the
    owner while the guard was waiting. -/
def Holds (c : Crew V C) (t : TaskId) (g : FrameId) (r : ResourceId) : Prop := c.picture.Holds t g r

variable {c : Crew V C} {t u : TaskId} {f g : FrameId} {r : ResourceId}

theorem known_of_guard {guard : ResourceId × Phase V} (guards : c.picture.guard g = some guard) :
    c.picture.known g := State.isSome_of_guard? guards

theorem Holds.known (holds : c.Holds t g r) : c.picture.known g := by
  obtain ⟨phase, guard, _⟩ := Picture.Holds.engaged holds
  exact known_of_guard guard

/-- A task that is done or failed owns nothing. -/
theorem Sound.nothing_owned (sound : c.Sound) {life : Life} (stands : c.state.life t = some life)
    (ended : life.isTerminal = true) : c.state.owner r ≠ some t := by
  intro owns
  obtain ⟨g, ⟨b, base, _⟩, _⟩ := sound.warded.owned owns
  have idle : c.stage t = none := sound.stage_of_life fun run => by
    obtain rfl := Option.some.inj (run.symm.trans stands)
    simp [Life.isTerminal] at ended
  rw [base_idle idle] at base
  have empty : c.picture.top t = none := sound.ended stands ended
  simp [empty] at base

namespace Run

variable [Inhabited V] (run : Run V C Guarded) {i j k : Nat}

/-- At this step, a guard lets go of its resource for its task. -/
structure Releases (k : Nat) (t : TaskId) (g : FrameId) (r : ResourceId) : Prop where
  bound : k < run.length
  resumed : run.resumed k = some (t, g)
  held : (run.crew k).state.guard? g = some (r, .held)
  ended : (run.crew (k + 1)).state.guard? g = some (r, .released)
  holds : (run.crew k).Holds t g r
  owner : (run.crew (k + 1)).state.owner =
    Function.update (run.crew k).state.owner r ((run.crew k).state.waiters r).head?
  waiters : (run.crew (k + 1)).state.waiters =
    Function.update (run.crew k).state.waiters r ((run.crew k).state.waiters r).tail
  innermost : ∀ {h r'}, (run.crew k).Holds t h r' → h ≠ g → Above (run.crew k).state.caller g h

variable {run}

theorem releases_of_held (bound : k < run.length) (resumed : run.resumed k = some (t, g))
    (held : (run.crew k).state.guard? g = some (r, .held)) : run.Releases k t g r := by
  have sound := run.sound k (by omega)
  obtain ⟨runner, effect⟩ := run.effect bound
  rw [resumed] at effect
  obtain ⟨ended, owner, waiters, holds, innermost⟩ := effect.releases sound.warded
    (State.isSome_of_guard? held) held
  exact ⟨bound, resumed, held, ended, holds, owner, waiters,
    fun having => innermost (Holds.known having) having⟩

/-- A guard keeps its resource, or lets go of it. -/
theorem holds_step (bound : k < run.length) (holds : (run.crew k).Holds t g r) :
    (run.crew (k + 1)).Holds t g r ∨ run.Releases k t g r := by
  have sound := run.sound k (by omega)
  obtain ⟨runner, effect⟩ := run.effect bound
  by_cases lets : (run.crew k).state.guard? g = some (r, .held) ∧ ∃ u, run.resumed k = some (u, g)
  · obtain ⟨held, u, resumed⟩ := lets
    have releases := releases_of_held bound resumed held
    obtain rfl : u = t := sound.warded.apart (.inl releases.holds.1) (.inl holds.1)
    exact .inr releases
  · refine .inl (effect.holds sound.warded holds.known holds fun held u resumed => ?_)
    exact lets ⟨held, u, resumed⟩

theorem released_step (bound : k < run.length)
    (ended : (run.crew k).state.guard? g = some (r, .released)) :
    (run.crew (k + 1)).state.guard? g = some (r, .released) ∧ ∀ u, run.resumed k ≠ some (u, g) := by
  obtain ⟨runner, effect⟩ := run.effect bound
  exact effect.released (State.isSome_of_guard? ended) ended

/-- A guard that has let go stays so to the end of the run. -/
theorem released_later (later : i ≤ j) (bound : j ≤ run.length)
    (ended : (run.crew i).state.guard? g = some (r, .released)) :
    (run.crew j).state.guard? g = some (r, .released) := by
  induction j, later using Nat.le_induction with
  | base => exact ended
  | succ j _ inductionHypothesis =>
    exact (released_step (by omega) (inductionHypothesis (by omega))).1

/-- A guard that has its resource keeps it, or lets go of it once and for all. -/
theorem holds_or_released (later : i ≤ j) (bound : j ≤ run.length) (holds : (run.crew i).Holds t g r) :
    (∀ m, i ≤ m → m ≤ j → (run.crew m).Holds t g r) ∨
      ∃ k, i ≤ k ∧ k < j ∧ run.Releases k t g r ∧ ∀ m, i ≤ m → m ≤ k → (run.crew m).Holds t g r := by
  induction j, later using Nat.le_induction with
  | base =>
    refine .inl fun m first last => ?_
    obtain rfl : m = i := by omega
    exact holds
  | succ j later inductionHypothesis =>
    rcases inductionHypothesis (by omega) with kept | ⟨k, first, last, releases, kept⟩
    · rcases holds_step (by omega) (kept j later le_rfl) with stays | releases
      · refine .inl fun m first last => ?_
        rcases Nat.lt_or_ge j m with beyond | within
        · obtain rfl : m = j + 1 := by omega
          exact stays
        · exact kept m first within
      · exact .inr ⟨j, later, by omega, releases, kept⟩
    · exact .inr ⟨k, first, by omega, releases, kept⟩

def rivals : Program Unit Empty :=
  let body : Body Unit Empty := fun context _ _ =>
    .ask (.yield context.task) fun _ => .answer .suspended
  .ask (.newResource none) fun r =>
  .newFrame "first" body fun first =>
  .ask (.newGuard r first) fun guard =>
  .newFrame "second" body fun second =>
  .ask (.newGuard r second) fun guard' =>
  .ask .newRegistry fun g =>
  .ask (.newScheduler .manual g) fun
    | .error _ => .answer .suspended
    | .ok s => .ask (.spawn s guard) fun
      | .error _ => .answer .suspended
      | .ok t => .ask (.spawn s guard') fun
        | .error _ => .answer .suspended
        | .ok u => .ask (.start t) fun _ => .ask (.start u) fun _ =>
          .drive s fun _ => .answer (.done ())

/-- The host of the two tasks after so many steps. -/
def rivalsHost (n : Nat) : Config Unit Empty := (Config.start (.initial 1) rivals).after n

theorem rivals_idle {n : Nat} {f : FrameId} (known : (rivalsHost n).alone.picture.known f)
    (roots : ∀ g, (rivalsHost n).state.caller g = none)
    (bases : ∀ t, (rivalsHost n).alone.picture.base t ≠ some f)
    (insides : ∀ t, (rivalsHost n).alone.stage t ≠ some (.inside f))
    (unresumed : ∀ r phase, (rivalsHost n).state.guard? f = some (r, phase) → ∃ body, phase = .start body) :
    (rivalsHost n).alone.picture.Idle f := by
  refine ⟨known, ?_, fun {r phase} => unresumed r phase⟩
  rintro t (⟨b, base, way⟩ | inside)
  · rcases way.cases_caller with rfl | ⟨c, link, _⟩
    · exact bases t base
    · exact nomatch (roots b).symm.trans link
  · exact insides t inside

theorem rivals_ok : ∀ n < 23, (rivalsHost n).step.isOk = true := by decide +kernel

theorem rivals_spawn_first : Guarded (rivalsHost 7).alone (rivalsHost 7).agent := by
  show ∀ f, Reaches (rivalsHost 7).state.caller ⟨2⟩ f → (rivalsHost 7).alone.picture.Idle f
  intro f way
  obtain rfl : ⟨2⟩ = f := way.cases_caller.resolve_right nofun
  refine rivals_idle rfl ?_ ?_ ?_ ?_
  · rintro ⟨_ | _ | _ | _ | _ | n⟩ <;> rfl
  · rintro ⟨_ | n⟩ <;> nofun
  · rintro ⟨_ | n⟩ <;> nofun
  · rintro r phase ⟨⟩
    exact ⟨_, rfl⟩

theorem rivals_spawn_second : Guarded (rivalsHost 8).alone (rivalsHost 8).agent := by
  show ∀ f, Reaches (rivalsHost 8).state.caller ⟨4⟩ f → (rivalsHost 8).alone.picture.Idle f
  intro f way
  obtain rfl : ⟨4⟩ = f := way.cases_caller.resolve_right nofun
  refine rivals_idle rfl ?_ ?_ ?_ ?_
  · rintro ⟨_ | _ | _ | _ | _ | n⟩ <;> rfl
  · rintro ⟨_ | _ | n⟩ <;> nofun
  · rintro ⟨_ | _ | n⟩ <;> nofun
  · rintro r phase ⟨⟩
    exact ⟨_, rfl⟩

theorem rivals_trampoline {n : Nat} {t : TaskId} {f : FrameId} {after : Focus Unit Empty}
    (focus : (rivalsHost n).agent.focus = .trampoline t after) (top : (rivalsHost n).state.top t = some f)
    (calls : ∀ r body, (rivalsHost n).state.guard? f = some (r, .start body) ∧
      (rivalsHost n).state.owner r = none → (rivalsHost n).alone.picture.Idle body)
    (resting : ∀ r body value, (rivalsHost n).state.guard? f ≠ some (r, .waiting body value)) :
    Guarded (rivalsHost n).alone (rivalsHost n).agent := by
  unfold Guarded
  rw [focus]
  intro task g r body found first _ asks
  obtain rfl : f = g := Option.some.inj (top.symm.trans ((State.top_of_get? found).trans first))
  rcases asks with starts | ⟨value, waits⟩
  · exact calls r body starts
  · exact absurd waits (resting r body value)

theorem rivals_permitted : ∀ n < 23, Guarded (rivalsHost n).alone (rivalsHost n).agent := by
  intro n bound
  interval_cases n
  case «7» => exact rivals_spawn_first
  case «8» => exact rivals_spawn_second
  case «13» =>
    refine rivals_trampoline (t := ⟨1⟩) (f := ⟨2⟩) rfl (by decide +kernel) ?_ nofun
    rintro r body ⟨⟨⟩, _⟩
    refine rivals_idle rfl ?_ ?_ ?_ nofun
    · rintro ⟨_ | _ | _ | _ | _ | n⟩ <;> rfl
    · rintro ⟨_ | _ | _ | n⟩ <;> nofun
    · rintro ⟨_ | _ | _ | n⟩ <;> nofun
  case «15» | «22» =>
    exact rivals_trampoline (t := ⟨1⟩) (f := ⟨1⟩) rfl (by decide +kernel) nofun nofun
  case «19» =>
    refine rivals_trampoline (t := ⟨2⟩) (f := ⟨4⟩) rfl (by decide +kernel) ?_ nofun
    rintro r body ⟨⟨⟩, ⟨⟩⟩
  all_goals trivial

/-- A guard lets go once at most. -/
theorem Releases.unique {k' : Nat} {r' : ResourceId} (first : run.Releases k t g r)
    (second : run.Releases k' u g r') : k = k' := by
  wlog before : k ≤ k' generalizing k k' t u r r'
  · exact (this second first (by omega)).symm
  by_contra different
  have ended := released_later (show k + 1 ≤ k' by omega) (by have := second.bound; omega) first.ended
  have held := ended.symm.trans second.held
  simp at held

end Run

end Crew

end Tasking
