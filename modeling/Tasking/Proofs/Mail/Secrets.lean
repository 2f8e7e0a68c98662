import Tasking.Proofs.Mail.Stores

/-! # Frames that nobody names

A frame whose identifier no code gives away stays where it is: it is on no chain, and nobody returns to it, until
the guard that is to call it does so (`Config.shuns_of_does`).
-/

namespace Tasking

variable {V C : Type}

/-- The request puts a frame on a chain, puts something above it, or gives it to a guard to call. -/
def Request.Mentions (b : FrameId) : Request V C → Prop
  | .spawn _ entry | .spawnBound _ entry => entry = b
  | .pause _ f => f = b
  | .attach f caller => f = b ∨ caller = some b
  | .newGuard _ body => body = b
  | _ => False

/-- The run of a task is at a frame, or will cancel it or land on it. -/
def Activation.Mentions (b : FrameId) : Activation V C → Prop
  | .frame _ f _ => f = b
  | .cancel _ doomed target _ _ => b ∈ doomed ++ [target]
  | _ => False

namespace State

variable {st st' st'' : State V C} {t : TaskId} {f g b : FrameId}

/-- No chain begins with a frame and no frame returns to it. -/
structure Shuns (st : State V C) (b : FrameId) : Prop where
  top : ∀ u, st.top u ≠ some b
  caller : ∀ h, st.caller h ≠ some b

/-- Chains begin where they began, and frames return to where they returned. -/
structure KeepsChains (st st' : State V C) : Prop where
  top : ∀ u, st'.top u = st.top u
  caller : st'.caller = st.caller

theorem top_of_steady (steady : Steady st st') (u : TaskId) : st'.top u = st.top u := by
  have stays := steady u
  rw [State.top, State.top]
  cases found : st.tasks.get? u with
  | none =>
    rw [found] at stays
    cases found' : st'.tasks.get? u with
    | none => rfl
    | some task =>
      rw [found'] at stays
      cases stays
  | some task =>
    rw [found] at stays
    cases found' : st'.tasks.get? u with
    | none =>
      rw [found'] at stays
      cases stays
    | some task' =>
      rw [found'] at stays
      cases stays with
      | some stays => exact congrArg Prod.fst stays.register

namespace KeepsChains

@[refl] theorem refl (st : State V C) : KeepsChains st st := ⟨fun _ => rfl, rfl⟩

theorem trans (first : KeepsChains st st') (second : KeepsChains st' st'') : KeepsChains st st'' :=
  ⟨fun u => (second.top u).trans (first.top u), second.caller.trans first.caller⟩

theorem of_steady (steady : Steady st st') (frames : st'.frames = st.frames) : KeepsChains st st' :=
  ⟨top_of_steady steady, caller_of_frames frames⟩

theorem of_tables (tasks : st'.tasks = st.tasks) (frames : st'.frames = st.frames) : KeepsChains st st' :=
  .of_steady (.of_tasks tasks) frames

theorem of_stops (stops : Stops t st st') : KeepsChains st st' := ⟨stops.top, caller_of_frames stops.frames⟩

theorem setCode (st : State V C) (f : FrameId) (code : Frame.Code V (Body V C)) :
    KeepsChains st (st.setCode f code) := ⟨fun _ => rfl, caller_setCode f code⟩

/-- A new frame returns nowhere. -/
theorem addFrame {frame : Frame V (Body V C)} (rootless : frame.caller = none) :
    KeepsChains st (st.addFrame frame).2 := by
  refine ⟨fun _ => rfl, funext fun f => ?_⟩
  simp only [State.addFrame, State.caller, Table.get?_add_eq]
  split
  · next fresh => simp [fresh, rootless]
  · rfl

theorem shuns (keeps : KeepsChains st st') (shuns : st.Shuns b) : st'.Shuns b :=
  ⟨fun u => keeps.top u ▸ shuns.top u, fun h => keeps.caller ▸ shuns.caller h⟩

end KeepsChains

/-! ## Resuming a frame -/

/-- A guard calls its body: the body is on top, and will return to the guard. -/
structure Calls (st : State V C) (t : TaskId) (f body : FrameId) (st' : State V C) : Prop where
  awaited : st.awaited? f = some body
  guard : ∃ r phase, st.code? f = some (.guard r phase) ∧ st'.code? f = some (.guard r .held)
  top : ∀ u, st'.top u = if u = t then some body else st.top u
  caller : ∀ g, st'.caller g = if g = body then some f else st.caller g

/-- A call does not depend on what tasks have for their top frames. -/
theorem Calls.before {st₁ : State V C} {body : FrameId} (calls : Calls st₁ t f body st') (keeps : KeepsChains st st₁)
    (frames : st₁.frames = st.frames) : Calls st t f body st' := by
  have code := code?_of_frames frames f
  obtain ⟨r, phase, here, held⟩ := calls.guard
  refine ⟨?_, ⟨r, phase, code ▸ here, held⟩, fun u => keeps.top u ▸ calls.top u, fun g => keeps.caller ▸ calls.caller g⟩
  rw [awaited?, ← code]
  exact calls.awaited

theorem calls_of_callFrame {st₁ : State V C} {callee : FrameId} {value : V} {answer : Answer V} {r : ResourceId}
    {phase : Phase V} (code : st.code? f = some (.guard r phase)) (awaited : st.awaited? f = some callee)
    (before : KeepsChains st st₁) (held : st₁.code? f = some (.guard r .held))
    (done : st₁.callFrame t f callee value = .ok (answer, st')) :
    answer = .jump callee value ∧ Calls st t f callee st' := by
  have codes := (wears_callFrame done).1
  simp only [callFrame, bind_ok, pure_ok, Prod.mk.injEq] at done
  obtain ⟨st₂, attached, st₃, paused, rfl, rfl⟩ := done
  obtain ⟨known, _, rfl⟩ := attach_ok attached
  obtain ⟨there, rfl⟩ := pause_ok paused
  obtain ⟨frame, found⟩ := Option.isSome_iff_exists.1 known
  refine ⟨rfl, awaited, ⟨r, phase, code, (congrFun codes f).trans held⟩, fun u => ?_, fun g => ?_⟩
  · rw [← before.top u]
    obtain ⟨task, here⟩ := Option.isSome_iff_exists.1 there
    rw [State.top, get?_modifyTask]
    split
    · rw [here]
      rfl
    · rfl
  · rw [← before.caller]
    change (st₁.modifyFrame callee fun frame => { frame with caller := some f }).caller g = _
    rw [State.caller, get?_modifyFrame, State.caller]
    split
    · next same => simp [found]
    · rfl

/-- What becomes of a guard that is resumed with a value and perhaps an error. -/
inductive Heeds (st : State V C) (t : TaskId) (f : FrameId) (r : ResourceId) (value : V) (error : Option (Error V)) :
    Phase V → Answer V → State V C → Prop where
  | calls {phase : Phase V} {body : FrameId} {kept : V} {st' : State V C} (given : error = none)
      (calls : Calls st t f body st') (brings : phase = .start body ∧ kept = value ∨ phase = .waiting body kept) :
      Heeds st t f r value error phase (.jump body kept) st'
  | parks {body : FrameId} {st' : State V C} (given : error = none) (keeps : KeepsChains st st')
      (code : st'.code? f = some (.guard r (.waiting body value))) :
      Heeds st t f r value error (.start body) .suspended st'
  /-- The guard was given an error before it asked, or was refused. -/
  | throws {body : FrameId} {thrown : Error V} {st' : State V C}
      (cause : error = some thrown ∨ error = none ∧ ∃ refusal, thrown = .deadlock refusal ∧
        st.refusal? t (.resource r) = some refusal) (keeps : KeepsChains st st')
      (code : st'.code? f = some (.guard r .released)) (same : st'.store = st.store) :
      Heeds st t f r value error (.start body) (.throw thrown) st'
  | letsGo {st' : State V C} (keeps : KeepsChains st st') (code : st'.code? f = some (.guard r .released)) :
      Heeds st t f r value error .held (.forward value error) st'

theorem heeds_resumeGuard {r : ResourceId} {phase : Phase V} {value : V} {error : Option (Error V)}
    {answer : Answer V} (code : st.code? f = some (.guard r phase))
    (done : st.resumeGuard t f r phase value error = .ok (answer, st')) :
    Heeds st t f r value error phase answer st' := by
  have recoded : KeepsChains st (st.setCode f (.guard r .released)) := .setCode st f _
  have code' : (st.setCode f (.guard r .released)).code? f = some (.guard r .released) := by
    rw [code?_setCode_eq code, Function.update_self]
  -- Whatever the guard becomes, it counts as released before.
  have again {st₁ : State V C} (phase' : Phase V) (here : st₁.code? f = some (.guard r .released)) :
      (st₁.setCode f (.guard r phase')).code? f = some (.guard r phase') := by
    rw [code?_setCode_eq here, Function.update_self]
  cases phase with
  | start body =>
    have awaited : st.awaited? f = some body := by rw [awaited?, code]
    simp only [State.resumeGuard] at done
    split at done
    · simp only [pure_ok, Prod.mk.injEq] at done
      obtain ⟨rfl, rfl⟩ := done
      exact .throws (.inl rfl) recoded code' rfl
    · simp only [bind_ok] at done
      obtain ⟨⟨granted, st₁⟩, acquired, done⟩ := done
      have frames := frames_acquire acquired
      have asked : KeepsChains st st₁ := recoded.trans (.of_steady (steady_acquire acquired) frames)
      have here : st₁.code? f = some (.guard r .released) := (code?_of_frames frames f).trans code'
      dsimp only at done
      split at done
      · obtain ⟨rfl, calls⟩ := calls_of_callFrame code awaited (asked.trans (.setCode st₁ f _)) (again .held here) done
        exact .calls rfl calls (.inl ⟨rfl, rfl⟩)
      · simp only [pure_ok, Prod.mk.injEq] at done
        obtain ⟨rfl, rfl⟩ := done
        exact .parks rfl (asked.trans (.setCode st₁ f _)) (again _ here)
      · next refusal =>
        simp only [pure_ok, Prod.mk.injEq] at done
        obtain ⟨rfl, rfl⟩ := done
        have refused : (st.setCode f (.guard r .released)).refusal? t (.resource r) = some refusal := by
          obtain ⟨_, _, ⟨granted, _⟩ | ⟨_, ⟨_, same, refused, _⟩ | ⟨blocked, _⟩⟩⟩ := acquire_ok acquired
          · cases granted
          · rw [refused, Except.error.inj same]
          · cases blocked
        rw [(Aside.setCode st f _).refusal?] at refused
        exact .throws (.inr ⟨rfl, refusal, rfl, refused⟩) asked here ((Bypasses.acquire acquired).store.trans rfl)
  | waiting body kept =>
    have awaited : st.awaited? f = some body := by rw [awaited?, code]
    simp only [State.resumeGuard, check_ok] at done
    obtain ⟨given, _, done⟩ := done
    obtain ⟨rfl, calls⟩ := calls_of_callFrame code awaited (recoded.trans (.setCode _ f _)) (again .held code') done
    exact .calls (by simpa using given) calls (.inr rfl)
  | held =>
    simp only [State.resumeGuard, bind_ok, pure_ok, Prod.mk.injEq] at done
    obtain ⟨st₁, gives, rfl, rfl⟩ := done
    have frames := frames_release gives
    exact .letsGo (recoded.trans (.of_steady (steady_release gives) frames)) ((code?_of_frames frames f).trans code')
  | released => simp [State.resumeGuard] at done

/-- Resuming a guard. -/
theorem heeds_resume {r : ResourceId} {phase : Phase V} {value : V} {error : Option (Error V)}
    {resumption : Resumption V C} (code : st.code? f = some (.guard r phase))
    (done : st.resume t f value error = .ok (resumption, st')) :
    ∃ answer, resumption = ⟨.answer answer, none⟩ ∧ Heeds st t f r value error phase answer st' := by
  obtain ⟨frame, found, same⟩ := Option.map_eq_some_iff.1 code
  simp only [State.resume, bind_ok, frame_ok] at done
  obtain ⟨frame', found', done⟩ := done
  obtain rfl := Option.some.inj (found.symm.trans found')
  simp only [same, bind_ok, pure_ok, Prod.mk.injEq] at done
  obtain ⟨⟨answer, st₁⟩, resumed, rfl, rfl⟩ := done
  exact ⟨answer, rfl, heeds_resumeGuard code resumed⟩

theorem Heeds.chains {r : ResourceId} {phase : Phase V} {value : V} {error : Option (Error V)} {answer : Answer V}
    (heeds : Heeds st t f r value error phase answer st') :
    KeepsChains st st' ∨ error = none ∧ ∃ body kept, answer = .jump body kept ∧ Calls st t f body st' := by
  cases heeds with
  | calls given calls => exact .inr ⟨given, _, _, rfl, calls⟩
  | parks given keeps | throws cause keeps | letsGo keeps => exact .inl keeps

theorem chains_resumeJoin {child : TaskId} {parked : Bool} {error : Option (Error V)} {answer : Answer V}
    (done : st.resumeJoin t f child parked error = .ok (answer, st')) : KeepsChains st st' := by
  unfold State.resumeJoin at done
  split at done
  · simp only [pure_ok, Prod.mk.injEq] at done
    exact done.2 ▸ .refl st
  · split at done
    · simp only [bind_ok] at done
      obtain ⟨awaited, _, done⟩ := done
      split at done
      · simp only [pure_ok, Prod.mk.injEq] at done
        exact done.2 ▸ .refl st
      · simp at done
    · simp only [bind_ok] at done
      obtain ⟨⟨reply, st₁⟩, waited, done⟩ := done
      have asked : KeepsChains st st₁ := .of_steady (steady_waitFor waited) (Quiet.waitFor waited).frames
      split at done <;> simp only [pure_ok, Prod.mk.injEq] at done
      · exact done.2 ▸ asked
      · exact done.2 ▸ asked.trans (.setCode st₁ f _)
      · exact done.2 ▸ asked

/-- Resuming a frame leaves all chains as they are unless a guard calls its body, which it does without an
error. -/
theorem chains_resume {value : V} {error : Option (Error V)} {resumption : Resumption V C}
    (done : st.resume t f value error = .ok (resumption, st')) :
    KeepsChains st st' ∨ error = none ∧ ∃ body value, resumption = ⟨.answer (.jump body value), none⟩ ∧
      Calls st t f body st' := by
  simp only [State.resume, bind_ok, frame_ok] at done
  obtain ⟨frame, found, done⟩ := done
  have code : st.code? f = some frame.code := by rw [code?, found]; rfl
  split at done
  · simp only [pure_ok, Prod.mk.injEq] at done
    exact .inl (done.2 ▸ .refl st)
  · next r phase same =>
    simp only [bind_ok, pure_ok, Prod.mk.injEq] at done
    obtain ⟨⟨answer, st₁⟩, resumed, rfl, rfl⟩ := done
    obtain keeps | ⟨given, body, value, rfl, calls⟩ := (heeds_resumeGuard (same ▸ code) resumed).chains
    · exact .inl keeps
    · exact .inr ⟨given, body, value, rfl, calls⟩
  · simp only [bind_ok, pure_ok, Prod.mk.injEq] at done
    obtain ⟨⟨answer, st₁⟩, resumed, _, rfl⟩ := done
    exact .inl (chains_resumeJoin resumed)
  · next a message delivered same =>
    unfold State.resumeMessage at done
    split at done
    · simp only [pure_ok, Prod.mk.injEq] at done
      exact .inl (done.2 ▸ .refl st)
    · have recoded : KeepsChains st (st.setCode f (.message a message true)) := .setCode st f _
      split at done
      · simp only [pure_ok, Prod.mk.injEq] at done
        exact .inl (done.2 ▸ recoded)
      · simp only [bind_ok] at done
        obtain ⟨actor, _, may, _, done⟩ := done
        split at done
        · simp only [pure_ok, Prod.mk.injEq] at done
          exact .inl (done.2 ▸ recoded.trans (.of_tables rfl rfl))
        · simp at done

/-! ## Frames that are passed over -/

/-- What happened put a frame neither on top of a chain nor below another, and left it its caller. -/
structure Skirts (st st' : State V C) (b : FrameId) : Prop where
  top : ∀ u, st'.top u = some b → st.top u = some b
  caller : ∀ h, st'.caller h = some b → st.caller h = some b
  link : st'.caller b = st.caller b

namespace Skirts

theorem of_chains (keeps : KeepsChains st st') : Skirts st st' b :=
  ⟨fun u => keeps.top u ▸ id, fun h => keeps.caller ▸ id, by rw [keeps.caller]⟩

theorem trans (first : Skirts st st' b) (second : Skirts st' st'' b) : Skirts st st'' b :=
  ⟨fun u here => first.top u (second.top u here), fun h link => first.caller h (second.caller h link),
    second.link.trans first.link⟩

theorem shuns (skirts : Skirts st st' b) (shuns : st.Shuns b) : st'.Shuns b :=
  ⟨fun u here => shuns.top u (skirts.top u here), fun h link => shuns.caller h (skirts.caller h link)⟩

/-- A chain begins elsewhere. -/
theorem modifyTask (st : State V C) (t : TaskId) {change : Task V → Task V} {top : Option FrameId}
    (sets : ∀ task, (change task).top = top) (apart : top = some b → st.top t = some b) :
    Skirts st (st.modifyTask t change) b := by
  refine ⟨fun u here => ?_, fun _ => id, rfl⟩
  rw [State.top, get?_modifyTask] at here
  split at here
  · next same =>
    obtain ⟨task, found, begins⟩ := Option.bind_eq_some_iff.1 here
    obtain ⟨before, _, rfl⟩ := Option.map_eq_some_iff.1 found
    exact same ▸ apart ((sets before).symm.trans begins)
  · exact here

theorem of_new {new : Task V} {entry : FrameId} (frames : st'.frames = st.frames)
    (tasks : ∀ u, st'.tasks.get? u = if u = st.tasks.next then some new else st.tasks.get? u)
    (begins : new.top = some entry) (apart : entry ≠ b) : Skirts st st' b := by
  refine ⟨fun u here => ?_, fun h => caller_of_frames frames ▸ id, by rw [caller_of_frames frames]⟩
  rw [State.top, tasks] at here
  split at here
  · exact absurd (Option.some.inj (begins.symm.trans here)) apart
  · exact here

theorem of_calls {body : FrameId} (calls : Calls st t f body st') (apart : body ≠ b) (other : f ≠ b) :
    Skirts st st' b := by
  refine ⟨fun u here => ?_, fun h link => ?_, ?_⟩
  · rw [calls.top] at here
    split at here
    · exact absurd (Option.some.inj here) apart
    · exact here
  · rw [calls.caller] at link
    split at link
    · exact absurd (Option.some.inj link) other
    · exact link
  · rw [calls.caller, if_neg (Ne.symm apart)]

end Skirts

variable [Inhabited V]

/-- A request that does not mention a frame passes it over. -/
theorem skirts_serve {request : Request V C} {reply : request.Reply} (apart : ¬ request.Mentions b)
    (done : st.serve request = .ok (reply, st')) : Skirts st st' b := by
  cases request with
  | spawn s entry =>
    simp only [serve, State.spawn, bind_ok] at done
    obtain ⟨scheduler, _, done⟩ := done
    split at done
    · obtain rfl : st = st' := congrArg Prod.snd (pure_ok.1 done)
      exact .of_chains (.refl st)
    · obtain rfl : _ = st' := congrArg Prod.snd (pure_ok.1 done)
      exact .of_new rfl (get?_spawned s entry none) rfl apart
  | spawnBound s entry =>
    simp only [serve, State.spawnBound, bind_ok] at done
    obtain ⟨scheduler, _, done⟩ := done
    split at done
    · obtain rfl : st = st' := congrArg Prod.snd (pure_ok.1 done)
      exact .of_chains (.refl st)
    · split at done
      · obtain rfl : _ = st' := congrArg Prod.snd (pure_ok.1 done)
        exact .of_new rfl (fun u => st.tasks.get?_add_eq _ u) rfl apart
      · simp at done
      · simp only [bind_ok, State.startBound] at done
        obtain ⟨st₁, started, done⟩ := done
        obtain rfl : st₁ = st' := congrArg Prod.snd (pure_ok.1 done)
        refine .trans ?_ (.of_chains (.of_steady (steady_start started) (Quiet.start started).frames))
        exact .of_new rfl (get?_spawned s entry (some scheduler.nextThread)) rfl apart
  | pause t f =>
    simp only [serve, bind_ok, pure_ok, Prod.mk.injEq] at done
    obtain ⟨_, paused, _, rfl⟩ := done
    obtain ⟨_, rfl⟩ := pause_ok paused
    exact .modifyTask st t (fun _ => rfl) fun same => absurd (Option.some.inj same) apart
  | attach f caller =>
    simp only [serve, bind_ok, pure_ok, Prod.mk.injEq] at done
    obtain ⟨_, attached, _, rfl⟩ := done
    obtain ⟨known, _, rfl⟩ := attach_ok attached
    obtain ⟨frame, found⟩ := Option.isSome_iff_exists.1 known
    have callers (h : FrameId) : (st.modifyFrame f fun frame => { frame with caller := caller }).caller h =
        if h = f then caller else st.caller h := by
      rw [State.caller, get?_modifyFrame, State.caller]
      split
      · next same => simp [found]
      · rfl
    obtain ⟨other, other'⟩ := not_or.1 apart
    refine ⟨fun _ => id, fun h link => ?_, ?_⟩
    · rw [callers] at link
      split at link
      · exact absurd link other'
      · exact link
    · rw [callers, if_neg (Ne.symm other)]
  | move t target =>
    simp only [serve, State.move, bind_ok] at done
    obtain ⟨task, _, done⟩ := done
    split at done
    · obtain rfl : _ = st' := congrArg Prod.snd (pure_ok.1 done)
      exact .of_chains ⟨top_modifyTask fun _ => rfl, rfl⟩
    · obtain rfl : st = st' := congrArg Prod.snd (pure_ok.1 done)
      exact .of_chains (.refl st)
  | newGuard r body =>
    obtain rfl : _ = st' := congrArg Prod.snd (pure_ok.1 done)
    exact .of_chains (.addFrame rfl)
  | newJoin child =>
    obtain rfl : _ = st' := congrArg Prod.snd (pure_ok.1 done)
    exact .of_chains (.addFrame rfl)
  | newMessage a message =>
    simp only [serve, addMessage, bind_ok, pure_ok] at done
    obtain ⟨actor, _, exclusive, _, made⟩ := done
    obtain rfl : _ = st' := congrArg Prod.snd made
    exact .of_chains (.trans (.addFrame rfl) (.addFrame rfl))
  | _ => exact .of_chains (.of_steady (steady_serve trivial done) (frames_serve done rfl))

end State

namespace Config

open State

variable {c config : Config V C} {t : TaskId} {b : FrameId}

/-- No chain begins with a frame, none returns to it, and the thread has nothing to do with it. -/
structure Shuns (c : Config V C) (b : FrameId) : Prop where
  state : c.state.Shuns b
  stack : ∀ y ∈ c.stack, ¬ y.Mentions b

/-- The step resumes a guard that calls its body. -/
structure Calls (c : Config V C) (t : TaskId) (f body : FrameId) (config : Config V C) : Prop where
  focus : ∃ after, c.focus = .trampoline t after ∧ config.stack = .frame t f after :: c.stack
  answers : ∃ value, config.focus = .code (.answer (.jump body value))
  first : c.state.top t = some f
  state : c.state.Calls t f body config.state

/-- Nobody resumes a frame that is on no chain. -/
theorem Shuns.unresumed (shuns : c.Shuns b) : c.agent.resumed? c.state ≠ some (t, b) := by
  have unmade {u : TaskId} {f target : FrameId} : Agent.topAfterJump c.state u f target ≠ some b := by
    unfold Agent.topAfterJump
    split
    · exact shuns.state.caller f
    · exact shuns.state.top u
  intro resumes
  unfold Agent.resumed? at resumes
  split at resumes
  · obtain ⟨g, top, same⟩ := Option.map_eq_some_iff.1 resumes
    cases same
    exact shuns.state.top _ top
  · next stack =>
    cases resumes
    refine shuns.stack _ ((show c.stack = _ from stack) ▸ List.mem_cons_self) ?_
    exact List.mem_cons_self
  · dsimp only at resumes
    split at resumes
    · cases resumes
    · obtain ⟨g, top, same⟩ := Option.map_eq_some_iff.1 resumes
      cases same
      exact unmade top
  · cases resumes

variable [Inhabited V]

/-- A step that does not resume the guard that is to call a frame passes the frame over, if code does not
mention it and it is no guard itself that calls a frame. -/
theorem skirts_of_does (uncalled : ∀ h, c.state.caller h ≠ some b)
    (unlanded : ∀ u target value after rest, c.stack = .cancel u [] target value after :: rest → target ≠ b)
    (unmentioned : ∀ request next, c.focus = .code (.ask request next) → ¬ request.Mentions b)
    (plain : c.state.awaited? b = none ∨ ∀ u, c.state.top u ≠ some b) (does : Does c config) :
    Skirts c.state config.state b ∨ ∃ t f, Calls c t f b config := by
  -- A jump leaves the chain where it begins, or takes it to a caller.
  have jumped {u : TaskId} {f target : FrameId} (same : Agent.topAfterJump c.state u f target = some b) :
      c.state.top u = some b := by
    unfold Agent.topAfterJump at same
    split at same
    · exact absurd same (uncalled f)
    · exact same
  cases does with
  | serves served => exact .inl (skirts_serve (unmentioned _ _ rfl) served)
  | newFrame => exact .inl (.of_chains (.addFrame rfl))
  | newActor | registers | passes | rests | hands | opens | closes => exact .inl (.of_chains (.of_tables rfl rfl))
  | begins detours busy settled taken begun =>
    have frames := (Quiet.beginRun begun).1.frames
    refine .inl (.of_chains ?_)
    obtain ⟨s, taken⟩ | ⟨_, rfl⟩ := taken
    · exact .of_steady ((steady_takeReady taken).trans (steady_beginRun begun))
        (frames.trans (Quiet.takeReady taken).frames)
    · exact .of_steady (steady_beginRun begun) frames
  | @resumes st st' t f task after resumption stack found top resumed =>
    have cleared : KeepsChains st (st.modifyTask t fun task => { task with value := default, error := none }) :=
      ⟨top_modifyTask fun _ => rfl, rfl⟩
    obtain keeps | ⟨_, body, value, rfl, calls⟩ := chains_resume resumed
    · exact .inl (.of_chains (cleared.trans keeps))
    · have first : st.top t = some f := (top_of_get? found).trans top
      have awaited : st.awaited? f = some body := calls.awaited
      have calls : State.Calls st t f body st' := calls.before cleared rfl
      by_cases same : body = b
      · subst same
        exact .inr ⟨t, f, ⟨after, rfl, rfl⟩, ⟨value, rfl⟩, first, calls⟩
      · refine .inl (.of_calls calls same ?_)
        rintro rfl
        obtain none' | untopped := plain
        · simp [none'] at awaited
        · exact untopped t first
  | @suspends st st' t f after stack parked =>
    have left : KeepsChains st (st.endRun t) := ⟨top_modifyTask fun _ => rfl, rfl⟩
    exact .inl (.of_chains (left.trans (.of_stops (Stops.park parked).1)))
  | @returns st t f caller answer result task after stack ends found top link =>
    have begins (task : Task V) : (returnTo task caller result).top = some caller := by cases result <;> rfl
    exact .inl (.modifyTask st t begins fun same => absurd (same ▸ link) (uncalled f))
  | @finishes st st' t f answer result task after stack ends found top link finished =>
    have emptied : Skirts st (st.modifyTask t fun task => { task with top := none }) b :=
      .modifyTask st t (fun _ => rfl) (by simp)
    have left : KeepsChains (st.modifyTask t fun task => { task with top := none })
        ((st.modifyTask t fun task => { task with top := none }).endRun t) := ⟨top_modifyTask fun _ => rfl, rfl⟩
    have idle : ((st.modifyTask t fun task => { task with top := none }).endRun t).top t = none := by
      simp [State.top, State.endRun, get?_modifyTask, found]
    exact .inl (emptied.trans (.of_chains (left.trans (.of_stops (Stops.finish idle finished)))))
  | @lands st t f target value task after stack found top =>
    have moved : Skirts st (st.modifyTask t fun task => { task with top := some target }) b :=
      .modifyTask st t (fun _ => rfl) fun same => jumped (top.trans same)
    refine .inl (moved.trans (.modifyTask _ t (fun _ => rfl) fun same => ?_))
    rw [← same]
    simp [State.top, get?_modifyTask, found]
  | @leaps st st' t f g target value task rest after resumption stack found top path resumed =>
    have moved : Skirts st (st.modifyTask t fun task => { task with top := some g }) b :=
      .modifyTask st t (fun _ => rfl) fun same => jumped (top.trans same)
    exact .inl (moved.trans (.of_chains ((chains_resume resumed).resolve_right (by simp))))
  | cancels resumed => exact .inl (.of_chains ((chains_resume resumed).resolve_right (by simp)))
  | @unwinds st t target answer value after stack =>
    exact .inl (.modifyTask st t (fun _ => rfl) fun same => absurd (Option.some.inj same) (unlanded _ _ _ _ _ rfl))

/-- The rest of a path consists of callers. -/
theorem callers_of_path {caller : FrameId → Option FrameId} {g : FrameId} {path : List FrameId}
    (chain : (g :: path).IsChain fun f g => caller f = some g) : ∀ h ∈ path, ∃ f, caller f = some h := by
  induction path generalizing g with
  | nil => simp
  | cons next path inductionHypothesis =>
    obtain ⟨link, chain⟩ := List.isChain_cons_cons.1 chain
    intro h member
    rcases List.mem_cons.1 member with rfl | later
    · exact ⟨g, link⟩
    · exact inductionHypothesis chain h later

/-- A thread gets to do with a frame as it resumes the frame, or as it unwinds to or past it. -/
theorem mentions_of_does (does : Does c config) {y : Activation V C} (member : y ∈ config.stack)
    (mentions : y.Mentions b) : y ∈ c.stack ∨ (∃ t, c.agent.resumed? c.state = some (t, b)) ∨
      (∃ h, c.state.caller h = some b) ∨ ∃ z ∈ c.stack, z.Mentions b := by
  have resumed {opened : Option ExclusiveId} {x : Activation V C} {stack : List (Activation V C)}
      (member : y ∈ (opened.map .opened).toList ++ x :: stack) : y = x ∨ y ∈ stack := by
    rcases List.mem_append.1 member with new | old
    · obtain ⟨opened', _, rfl⟩ := Option.map_eq_some_iff.1 (Option.mem_toList.1 new)
      exact mentions.elim
    · exact List.mem_cons.1 old
  cases does with
  | serves | newFrame | newActor | registers | rests | begins => exact .inl member
  | passes detours idle calls =>
    rcases List.mem_append.1 member with new | old
    · have call := calls y new
      cases y with
      | call => exact mentions.elim
      | _ => exact call.elim
    · exact .inl old
  | hands | closes | suspends | returns | finishes | lands | unwinds => exact .inl (List.mem_cons_of_mem _ member)
  | opens =>
    simp only [List.mem_cons] at member
    rcases member with rfl | rfl | old
    · exact mentions.elim
    · exact mentions.elim
    · exact .inl old
  | resumes found top =>
    obtain rfl | old := resumed member
    · obtain rfl : _ = b := mentions
      exact .inr (.inl ⟨_, by simp [agent, Agent.resumed?, top_of_get? found, top]; rfl⟩)
    · exact .inl old
  | leaps found top path =>
    obtain rfl | old := resumed member
    · exact .inr (.inr (.inl (callers_of_path path b mentions)))
    · exact .inl (List.mem_cons_of_mem _ old)
  | cancels =>
    obtain rfl | old := resumed member
    · exact .inr (.inr (.inr ⟨_, List.mem_cons_self, List.mem_cons_of_mem _ mentions⟩))
    · exact .inl (List.mem_cons_of_mem _ old)

/-- A frame that nobody has to do with stays so until the guard that is to call it does. -/
theorem shuns_of_does (shuns : c.Shuns b)
    (unmentioned : ∀ request next, c.focus = .code (.ask request next) → ¬ request.Mentions b)
    (does : Does c config) : config.Shuns b ∨ ∃ t f, Calls c t f b config := by
  have unlanded : ∀ u target value after rest, c.stack = .cancel u [] target value after :: rest → target ≠ b := by
    rintro u target value after rest here rfl
    exact shuns.stack _ (here ▸ List.mem_cons_self) (by simp [Activation.Mentions])
  refine (skirts_of_does shuns.state.caller unlanded unmentioned (.inr shuns.state.top) does).imp_left fun skirts =>
    ⟨skirts.shuns shuns.state, fun y member mentions => ?_⟩
  obtain old | ⟨t, label⟩ | ⟨h, link⟩ | ⟨z, member', mentions'⟩ := mentions_of_does does member mentions
  · exact shuns.stack y old mentions
  · exact shuns.unresumed label
  · exact shuns.state.caller h link
  · exact shuns.stack z member' mentions'

end Config

end Tasking
