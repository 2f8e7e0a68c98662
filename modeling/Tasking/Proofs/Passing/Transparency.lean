import Tasking.Proofs.Mail.Serial
import Tasking.Proofs.Passing.Passage

/-! # Guards are transparent

A guard that is first resumed with a value is refused and throws the refusal, or its body is first resumed with that
value, and the guard finishes as its body does, or as what the body put in its own place does.  A guard that is first
resumed with an error throws that error, and asks for nothing.  `Crew.Run.guards_transparent` says so of every run of
guarded programs.
-/

namespace Tasking

variable {V C : Type}

open Picture

theorem State.code?_of_guard? {st : State V C} {g : FrameId} {r : ResourceId} {phase : Phase V}
    (guard : st.guard? g = some (r, phase)) : st.code? g = some (.guard r phase) := by
  obtain ⟨frame, found, same⟩ := Option.bind_eq_some_iff.1 guard
  rw [State.code?, found]
  cases kind : frame.code with
  | guard =>
    rw [kind] at same
    cases same
    exact congrArg some kind
  | _ =>
    rw [kind] at same
    cases same

namespace Crew

open State

/-- A guard is to call a frame, and nobody else has to do with that. -/
structure Reserves (c : Crew V C) (g b : FrameId) : Prop where
  known : (c.state.code? b).isSome = true
  shuns : c.Shuns b
  keeper : ∀ {h}, c.state.awaited? h = some b → h = g

theorem Waits.reserves {c c' : Crew V C} (waits : Waits c c') {g b : FrameId} (reserves : c.Reserves g b) :
    c'.Reserves g b := by
  have shuns := waits.shuns reserves.shuns
  obtain ⟨st', agents'⟩ := c'
  obtain ⟨thread, rfl⟩ := waits.state
  exact ⟨reserves.known, shuns, reserves.keeper⟩

namespace Run

variable [Inhabited V]

/-- From this step on, nobody but a guard has to do with the frame that it is to call, and no code mentions that frame
before it is resumed. -/
structure Reserved {allowed : Crew V C → Agent V C → Prop} (run : Run V C allowed) (i : Nat) (g b : FrameId) :
    Prop where
  reserves : (run.crew i).Reserves g b
  unmentioned : ∀ {k st before agent behind config}, run.Acts k st before agent behind config → i ≤ k →
    (∀ {m u}, i ≤ m → m < k → run.resumed m ≠ some (u, b)) →
      ∀ request next, agent.focus = .code (.ask request next) → ¬ request.Mentions b

variable {run : Run V C Guarded} {i j k l m n : Nat} {st : State V C} {before behind : List (Agent V C)}
  {agent : Agent V C} {config : Config V C} {t u w : TaskId} {g b x : FrameId} {r : ResourceId} {v : V}

/-! ### What a guard holds -/

theorem held_later (since : j ≤ k) (bound : k ≤ run.length) (held : (run.crew j).state.guard? g = some (r, .held)) :
    (run.crew k).state.guard? g = some (r, .held) ∨ (run.crew k).state.guard? g = some (r, .released) := by
  induction k, since using Nat.le_induction with
  | base => exact .inl held
  | succ k since inductionHypothesis =>
    obtain held | released := inductionHypothesis (by omega)
    · by_cases label : ∃ u, run.resumed k = some (u, g)
      · obtain ⟨u, resumed⟩ := label
        exact .inr (releases_of_held bound resumed held).ended
      · obtain ⟨runner, effect⟩ := run.effect bound
        exact .inl ((effect.guard (State.isSome_of_guard? held) fun u resumed => label ⟨u, resumed⟩).trans held)
    · exact .inr (released_step bound released).1

/-- A guard that has called its body calls nothing any more. -/
theorem CallsBody.unawaited (enters : run.CallsBody j t g b r) (since : j < k) (bound : k ≤ run.length) :
    (run.crew k).state.awaited? g = none := by
  obtain held | released := held_later since bound enters.held
  · rw [awaited?, code?_of_guard? held]
  · rw [awaited?, code?_of_guard? released]

theorem CallsBody.unique {b' : FrameId} {r' : ResourceId} (first : run.CallsBody j t g b r)
    (second : run.CallsBody k u g b' r') : j = k := by
  wlog before : j < k generalizing j k t u b b' r r'
  · obtain same | later := Nat.eq_or_lt_of_not_lt before
    · exact same
    · exact (this second first later).symm
  exact absurd ((first.unawaited before second.bound.le).symm.trans second.awaits) (by simp)

theorem BodyBegins.unique {r' : ResourceId} {v' : V} (begins : run.BodyBegins j l t g b r v)
    (begins' : run.BodyBegins j n u g b r' v') : l = n := by
  wlog before : l < n generalizing l n t u r r' v v'
  · obtain same | later := Nat.eq_or_lt_of_not_lt before
    · exact same
    · exact (this begins' begins later).symm
  exact absurd begins.gives.resumed (begins'.first begins.later before)

/-! ### Who resumes the body -/

theorem Acts.reserves (acts : run.Acts k st before agent behind config)
    (reserves : (⟨st, before ++ agent :: behind⟩ : Crew V C).Reserves g b)
    (unmentioned : ∀ request next, agent.focus = .code (.ask request next) → ¬ request.Mentions b) :
    (⟨config.state, before ++ config.agent :: behind⟩ : Crew V C).Reserves g b ∨ ∃ t r, run.CallsBody k t g b r := by
  obtain shuns | ⟨t, f, calls⟩ := acts.shuns reserves.shuns unmentioned
  · refine .inl ⟨Config.code?_grows acts.acyclic acts.does reserves.known, shuns, fun {h} awaits => ?_⟩
    obtain old | ⟨r, next, focus⟩ | ⟨rfl, _⟩ := Config.awaited_of_does acts.acyclic acts.does awaits
    · exact reserves.keeper old
    · exact absurd rfl (unmentioned _ _ focus)
    · exact absurd reserves.known (by simp [State.code?_next, Agent.config])
  · obtain rfl : f = g := reserves.keeper calls.state.awaited
    obtain ⟨r, phase, _, held⟩ := calls.state.guard
    obtain ⟨after, focus, _⟩ := calls.focus
    refine .inr ⟨t, r, acts.bound, ?_, ?_, ?_, ?_, ?_⟩
    · have focus' : agent.focus = .trampoline t after := focus
      have first : st.top t = some f := calls.first
      rw [acts.label]
      simp [Agent.resumed?, focus', first]
    · rw [acts.crew]
      exact calls.state.awaited
    · rw [acts.next]
      exact guard?_of_code? held
    · rw [acts.next]
      exact (calls.state.top t).trans (if_pos rfl)
    · rw [acts.next]
      exact (calls.state.caller b).trans (if_pos rfl)

theorem Acts.unresumed (acts : run.Acts k st before agent behind config)
    (shuns : (⟨st, before ++ agent :: behind⟩ : Crew V C).Shuns b) (u : TaskId) : run.resumed k ≠ some (u, b) := by
  have mine : (agent.config st).Shuns b := ⟨shuns.state, shuns.threads agent (by simp)⟩
  exact fun resumed => mine.unresumed (acts.label.symm.trans resumed)

/-- A frame that a guard is to call is resumed by nobody before the guard calls it. -/
theorem Reserved.lasts (reserved : run.Reserved i g b) (since : i ≤ k) (bound : k ≤ run.length) :
    (run.crew k).Reserves g b ∧ (∀ {m u}, i ≤ m → m < k → run.resumed m ≠ some (u, b)) ∨
      ∃ j t r, i ≤ j ∧ j < k ∧ run.CallsBody j t g b r ∧ ∀ {m u}, i ≤ m → m ≤ j → run.resumed m ≠ some (u, b) := by
  induction k, since using Nat.le_induction with
  | base => exact .inl ⟨reserved.reserves, fun first last => by omega⟩
  | succ k since inductionHypothesis =>
    obtain ⟨reserves, unresumed⟩ | ⟨j, t, r, first, last, enters, unresumed⟩ := inductionHypothesis (by omega)
    · have onwards (calm : ∀ u, run.resumed k ≠ some (u, b)) {m : Nat} {u : TaskId} (first : i ≤ m) (last : m < k + 1) :
          run.resumed m ≠ some (u, b) := by
        obtain before | rfl := Nat.lt_succ_iff_lt_or_eq.1 last
        · exact unresumed first before
        · exact calm u
      obtain ⟨st, before, agent, behind, config, acts⟩ | ⟨idle, waits⟩ := run.acts_or_waits bound
      · rw [acts.crew] at reserves
        have calm {m : Nat} {u : TaskId} := onwards (acts.unresumed reserves.shuns) (m := m) (u := u)
        obtain reserves | ⟨t, r, enters⟩ := acts.reserves reserves (reserved.unmentioned acts since unresumed)
        · refine .inl ⟨?_, calm⟩
          rw [acts.next]
          exact reserves
        · exact .inr ⟨k, t, r, since, Nat.lt_succ_self k, enters, fun first last => calm first (by omega)⟩
      · exact .inl ⟨waits.reserves reserves, onwards fun u => by simp [idle]⟩
    · exact .inr ⟨j, t, r, first, by omega, enters, unresumed⟩

/-! ### What becomes of a guard -/

/-- A guard passes a value on to its body, and the result of the body to its caller. -/
structure Passes (run : Run V C Guarded) (i : Nat) (t : TaskId) (g b : FrameId) (r : ResourceId) (v : V) : Prop where
  /-- At every later step, it is at one of the stages of its way. -/
  course : ∀ {k}, i < k → k ≤ run.length → run.Passage t g b r v k (run.crew k)
  /-- When the body is resumed first after the guard called it, it is for the same task, and with the value. -/
  begins : ∀ {j l u w r'}, i ≤ j → run.CallsBody j u g b r' → j < l → l < run.length → run.resumed l = some (w, b) →
    (∀ {m u}, j < m → m < l → run.resumed m ≠ some (u, b)) → run.BodyBegins j l t g b r v
  /-- If nobody else has to do with the body, it is resumed first after the guard called it. -/
  first : run.Reserved i g b → ∀ {l w}, i ≤ l → l < run.length → run.resumed l = some (w, b) →
    (∀ {m u}, i ≤ m → m < l → run.resumed m ≠ some (u, b)) → ∃ j, i ≤ j ∧ run.BodyBegins j l t g b r v
  /-- Whatever finishes and returns to the guard stands in for the body, and the guard is next and finishes with the same
  result. -/
  ends : ∀ {j l m x result}, i ≤ j → run.BodyBegins j l t g b r v → l < m → run.FinishesTo m t g x result →
    (run.crew m).state.guard? g = some (r, .held) → (∀ {n}, l < n → n < m → ¬ run.Leaps n t g) →
    run.StandsIn j t g b m x ∧ ∀ {k}, m < k → k ≤ run.length → run.Forwards m t g r result k (run.crew k)
  /-- If the guard lets go, and no frame jumped to it or past it, then its body, or what was put in the place of the
  body, finished, and the guard finishes with the same result and without its resource. -/
  relays : ∀ {n u r'}, run.Releases n u g r' → (∀ {m}, i < m → m ≤ n → ¬ run.Leaps m t g) →
    u = t ∧ ∃ j l m result, i ≤ j ∧ run.BodyBegins j l t g b r v ∧ l < m ∧ m < n ∧ run.BodyEnds j m t g b result ∧
      run.Relays n t g r result

/-- A body that is resumed after its guard called it is resumed with the value that the guard had. -/
theorem Passage.begins (passage : run.Passage t g b r v l (run.crew l)) {r' : ResourceId}
    (enters : run.CallsBody j u g b r') (later : j < l) (bound : l < run.length) (resumed : run.resumed l = some (w, b))
    (first : ∀ {m u}, j < m → m < l → run.resumed m ≠ some (u, b)) : run.BodyBegins j l t g b r v := by
  have met {j' l' : Nat} (begins : run.BodyBegins j' l' t g b r v) (earlier : l' < l) : run.BodyBegins j l t g b r v := by
    obtain rfl := enters.unique begins.enters
    exact absurd begins.gives.resumed (first begins.later earlier)
  have unawaited := enters.unawaited later bound.le
  obtain ⟨st, before, agent, behind, config, acts⟩ | ⟨idle, _⟩ := run.acts_or_waits bound
  swap
  · exact absurd (idle.symm.trans resumed) (by simp)
  rw [acts.crew] at passage unawaited
  cases passage with
  | waits code => simp [awaited?, code] at unawaited
  | called _ _ _ _ link top member => exact absurd resumed (acts.unresumed_called link top member w).1
  | landed enters' earlier unresumed code covers top loaded member =>
    obtain rfl := enters.unique enters'
    obtain ⟨_, begins⟩ | ⟨_, calm⟩ := acts.begins enters' earlier unresumed code covers top loaded member
    · exact begins
    · exact absurd resumed (calm w)
  | runs begins earlier => exact met begins earlier
  | ended begins since earlier => exact met begins (since.trans earlier)
  | leapt begins since _ earlier => exact met begins (since.trans earlier)

/-- What finishes after the body began, and returns to the guard, stands in for the body. -/
theorem Passage.ends (passage : run.Passage t g b r v m (run.crew m)) {result : Except (Error V) V}
    (begins : run.BodyBegins j l t g b r v) (since : l < m) (finishes : run.FinishesTo m t g x result)
    (held : (run.crew m).state.guard? g = some (r, .held)) (unleapt : ∀ {n}, l < n → n < m → ¬ run.Leaps n t g) :
    run.StandsIn j t g b m x ∧ run.Forwards m t g r result (m + 1) (run.crew (m + 1)) := by
  obtain ⟨st, before, after, rest, behind, config, acts, link⟩ := finishes
  have inside : (⟨st, before ++ ⟨.code (.answer (.ofResult result)), .frame t x after :: rest⟩ :: behind⟩ :
      Crew V C).stage t = some (.inside x) := acts.stage_of_run (by simp [Agent.runs, Activation.run?])
  have bound := acts.bound
  have crew := acts.crew
  rw [crew] at passage held link
  have here : (⟨.code (.answer (.ofResult result)), .frame t x after :: rest⟩ : Agent V C) ∈
      before ++ ⟨.code (.answer (.ofResult result)), .frame t x after :: rest⟩ :: behind :=
    List.mem_append_right _ List.mem_cons_self
  cases passage with
  | waits code => simp [guard?_of_code? code] at held
  | called enters _ unresumed =>
    obtain rfl := enters.unique begins.enters
    exact absurd begins.gives.resumed (unresumed begins.later since)
  | landed enters _ unresumed =>
    obtain rfl := enters.unique begins.enters
    exact absurd begins.gives.resumed (unresumed begins.later since)
  | runs begins' _ code covers =>
    obtain rfl := begins.enters.unique begins'.enters
    refine ⟨covers.only (.inr inside) link, ?_⟩
    rw [acts.next]
    exact .of_finishes acts code link
  | ended begins' since' earlier _ forwards =>
    cases forwards with
    | next _ _ _ member =>
      have next := acts.sound.stage_of_run member (show (t, .next) ∈ _ by simp [Agent.runs, Focus.run?])
      exact absurd (inside.symm.trans next) (by simp)
    | done _ before' relays =>
      have released := released_later (show _ + 1 ≤ m from before') bound.le relays.releases.ended
      rw [crew, held] at released
      simp at released
  | leapt begins' since' leaps earlier =>
    obtain rfl := begins.enters.unique begins'.enters
    obtain rfl := begins.unique begins'
    exact absurd leaps (unleapt since' earlier)

/-- A guard lets go because what stood in for its body finished, or because of a jump. -/
theorem Passage.relays (passage : run.Passage t g b r v (n + 1) (run.crew (n + 1))) {r' : ResourceId}
    (releases : run.Releases n u g r') : (∃ j l m, run.BodyBegins j l t g b r v ∧ l < m ∧ m ≤ n ∧ run.Leaps m t g) ∨
      u = t ∧ ∃ j l m result, run.BodyBegins j l t g b r v ∧ l < m ∧ m < n ∧ run.BodyEnds j m t g b result ∧
        run.Relays n t g r result := by
  have free {phase : Phase V} (code : (run.crew (n + 1)).state.code? g = some (.guard r phase)) : phase = .released := by
    have same := (guard?_of_code? code).symm.trans releases.ended
    exact congrArg Prod.snd (Option.some.inj same)
  cases passage with
  | waits code => cases free code
  | called _ _ _ code => cases free code
  | landed _ _ _ code => cases free code
  | runs _ _ code => cases free code
  | ended begins since _ ends forwards =>
    cases forwards with
    | next code => cases free code
    | done later earlier relays =>
      obtain rfl := relays.releases.unique releases
      have same := relays.releases.resumed.symm.trans releases.resumed
      exact .inr ⟨congrArg Prod.fst (Option.some.inj same).symm, _, _, _, _, begins, since, later, ends, relays⟩
  | leapt begins since leaps earlier => exact .inl ⟨_, _, _, begins, since, by omega, leaps⟩

theorem Passage.passes (passage : run.Passage t g b r v (i + 1) (run.crew (i + 1)))
    (start : (run.crew i).state.guard? g = some (r, .start b)) (bound : i < run.length) : run.Passes i t g b r v := by
  have course {k : Nat} (since : i < k) (bound : k ≤ run.length) := passage.later since bound
  have entered {j l : Nat} (begins : run.BodyBegins j l t g b r v) : i ≤ j := by
    by_contra before
    have unawaited := begins.enters.unawaited (show j < i by omega) bound.le
    simp [awaited?, code?_of_guard? start] at unawaited
  refine ⟨course, fun {j l u w r'} since enters later bound resumed first => ?_,
    fun reserved {l w} since bound resumed first => ?_,
    fun {j l m x result} since begins later finishes held unleapt => ?_, fun {n u r'} releases unleapt => ?_⟩
  · exact (course (by omega) bound.le).begins enters later bound resumed first
  · obtain ⟨reserves, _⟩ | ⟨j, u, r', since', later, enters, _⟩ := reserved.lasts since bound.le
    · obtain ⟨st, before, agent, behind, config, acts⟩ | ⟨idle, _⟩ := run.acts_or_waits bound
      · rw [acts.crew] at reserves
        exact absurd resumed (acts.unresumed reserves.shuns w)
      · exact absurd (idle.symm.trans resumed) (by simp)
    · refine ⟨j, since', (course (by omega) bound.le).begins enters later bound resumed fun from' => ?_⟩
      exact first (by omega)
  · have end' : m < run.length := by
      obtain ⟨_, _, _, _, _, _, acts, _⟩ := finishes
      exact acts.bound
    obtain ⟨stands, forwards⟩ :=
      (course (by have := begins.later; omega) end'.le).ends begins later finishes held unleapt
    exact ⟨stands, fun since bound => forwards.later (Nat.lt_succ_self m) since bound⟩
  · have since : i < n := by
      by_contra before
      obtain released | held : (run.crew i).state.guard? g = some (r', .released) ∨
          (run.crew i).state.guard? g = some (r', .held) := by
        obtain same | earlier := Nat.eq_or_lt_of_le (Nat.le_of_not_lt before)
        · exact .inr (same ▸ releases.held)
        · exact .inl (released_later earlier bound.le releases.ended)
      · simp [start] at released
      · simp [start] at held
    obtain ⟨j, l, m, begins, later, last, leaps⟩ | ⟨same, j, l, m, result, begins, found⟩ :=
      (course (show i < n + 1 by omega) releases.bound).relays releases
    · have := entered begins
      have := begins.later
      exact absurd leaps (unleapt (by omega) last)
    · exact ⟨same, j, l, m, result, entered begins, begins, found⟩

end Run

end Crew

end Tasking
