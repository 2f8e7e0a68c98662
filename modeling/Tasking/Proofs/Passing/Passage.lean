import Tasking.Proofs.Passing.Clearing
import Tasking.Proofs.Passing.Standing

/-! # The way of a value through a guard

A guard that was first resumed with a value keeps the value until it has its resource, and calls its body with it.
What stands in for the body finishes with a result, and the guard is next, lets go, and finishes with the same result.
`Crew.Run.Passage` lists these stages, and no step leads anywhere else unless a frame jumps to the guard or past it
(`Crew.Run.Passage.acts`).
-/

namespace Tasking

variable {V C : Type}

open Picture

namespace Crew

open State

namespace Run

variable [Inhabited V]

section

variable {allowed : Crew V C → Agent V C → Prop}

/-- At this step, a frame is resumed for a task, with a value and perhaps an error. -/
def Gives (run : Run V C allowed) (k : Nat) (t : TaskId) (f : FrameId) (value : V) (error : Option (Error V)) : Prop :=
  ∃ st before agent behind config, run.Acts k st before agent behind config ∧ agent.resumed? st = some (t, f) ∧
    (agent.config st).resume? = some ⟨f, value, error⟩

theorem Gives.resumed {run : Run V C allowed} {k : Nat} {t : TaskId} {f : FrameId} {value : V}
    {error : Option (Error V)} (gives : run.Gives k t f value error) : run.resumed k = some (t, f) := by
  obtain ⟨st, before, agent, behind, config, acts, label, _⟩ := gives
  exact acts.label.trans label

/-- At this step, a guard that has its resource calls its body. -/
structure CallsBody (run : Run V C allowed) (j : Nat) (t : TaskId) (g b : FrameId) (r : ResourceId) : Prop where
  bound : j < run.length
  resumed : run.resumed j = some (t, g)
  awaits : (run.crew j).state.awaited? g = some b
  held : (run.crew (j + 1)).state.guard? g = some (r, .held)
  top : (run.crew (j + 1)).state.top t = some b
  link : (run.crew (j + 1)).state.caller b = some g

/-- After a guard called its body, the body is resumed first at this step: for the same task, which owns the resource,
with the value and without an error. -/
structure BodyBegins (run : Run V C allowed) (j l : Nat) (t : TaskId) (g b : FrameId) (r : ResourceId) (v : V) : Prop where
  enters : run.CallsBody j t g b r
  later : j < l
  first : ∀ {m u}, j < m → m < l → run.resumed m ≠ some (u, b)
  gives : run.Gives l t b v none
  owner : (run.crew l).state.owner r = some t

end

/-- What stands in for the body of a guard finishes at this step, and returns to the guard. -/
def BodyEnds {allowed : Crew V C → Agent V C → Prop} (run : Run V C allowed) (j m : Nat) (t : TaskId) (g b : FrameId)
    (result : Except (Error V) V) : Prop :=
  ∃ x, run.StandsIn j t g b m x ∧ run.FinishesTo m t g x result

/-- At this step, a guard lets go of its resource, and finishes with this result. -/
structure Relays (run : Run V C Guarded) (n : Nat) (t : TaskId) (g : FrameId) (r : ResourceId)
    (result : Except (Error V) V) : Prop where
  releases : run.Releases n t g r
  foreign : (run.crew (n + 1)).state.owner r ≠ some t
  answers : ∃ after rest, ⟨.code (.answer (.ofResult result)), .frame t g after :: rest⟩ ∈ (run.crew (n + 1)).agents

/-- Something finished at step `m` and returned to a guard: the guard is next and has the result, or it let go since
then and finished with the result. -/
inductive Forwards (run : Run V C Guarded) (m : Nat) (t : TaskId) (g : FrameId) (r : ResourceId)
    (result : Except (Error V) V) (k : Nat) (c : Crew V C) : Prop where
  | next {after : Focus V C} {rest : List (Activation V C)} (code : c.state.code? g = some (.guard r .held))
      (top : c.state.top t = some g) (loaded : ∃ task, c.state.tasks.get? t = some task ∧
        Answer.forward task.value task.error = .ofResult result) (member : ⟨.trampoline t after, rest⟩ ∈ c.agents)
  | done {n : Nat} (later : m < n) (earlier : n < k) (relays : run.Relays n t g r result)

/-- How far a guard has come before this step that was first resumed with a value. -/
inductive Passage (run : Run V C Guarded) (t : TaskId) (g b : FrameId) (r : ResourceId) (v : V) (k : Nat)
    (c : Crew V C) : Prop where
  /-- It is in line for its resource, or was handed it. -/
  | waits (code : c.state.code? g = some (.guard r (.waiting b v))) (uses : c.picture.Uses t g)
      (top : c.state.top t = some g) (line : t ∈ c.state.waiters r ∨ c.state.owner r = some t)
  /-- It called its body. -/
  | called {j : Nat} {after : Focus V C} {rest : List (Activation V C)} (enters : run.CallsBody j t g b r) (earlier : j < k)
      (unresumed : ∀ {m u}, j < m → m < k → run.resumed m ≠ some (u, b))
      (code : c.state.code? g = some (.guard r .held)) (link : c.state.caller b = some g)
      (top : c.state.top t = some b)
      (member : ⟨.code (.answer (.jump b v)), .frame t g after :: rest⟩ ∈ c.agents)
  /-- The body is next. -/
  | landed {j : Nat} {after : Focus V C} {rest : List (Activation V C)} (enters : run.CallsBody j t g b r) (earlier : j < k)
      (unresumed : ∀ {m u}, j < m → m < k → run.resumed m ≠ some (u, b))
      (code : c.state.code? g = some (.guard r .held)) (covers : c.picture.Covers t g (run.StandsIn j t g b k))
      (top : c.state.top t = some b) (loaded : ∃ task, c.state.tasks.get? t = some task ∧ task.inputs = (v, none))
      (member : ⟨.trampoline t after, rest⟩ ∈ c.agents)
  /-- The body was resumed, and nothing that stands in for it has finished yet. -/
  | runs {j l : Nat} (begins : run.BodyBegins j l t g b r v) (earlier : l < k)
      (code : c.state.code? g = some (.guard r .held)) (covers : c.picture.Covers t g (run.StandsIn j t g b k))
  /-- What stood in for the body finished, and the guard is next or let go. -/
  | ended {j l m : Nat} {result : Except (Error V) V} (begins : run.BodyBegins j l t g b r v) (since : l < m)
      (earlier : m < k) (ends : run.BodyEnds j m t g b result) (forwards : run.Forwards m t g r result k c)
  /-- A frame jumped to the guard or past it. -/
  | leapt {j l m : Nat} (begins : run.BodyBegins j l t g b r v) (since : l < m) (leaps : run.Leaps m t g) (earlier : m < k)

variable {run : Run V C Guarded} {i j k l : Nat} {st : State V C} {before behind : List (Agent V C)}
  {agent other : Agent V C} {config : Config V C} {t u : TaskId} {f g b : FrameId} {r : ResourceId} {v : V}

theorem unresumed_succ (unresumed : ∀ {m u}, j < m → m < k → run.resumed m ≠ some (u, b))
    (here : ∀ u, run.resumed k ≠ some (u, b)) {m : Nat} {u : TaskId} (since : j < m) (earlier : m < k + 1) :
    run.resumed m ≠ some (u, b) := by
  obtain before | rfl := Nat.lt_succ_iff_lt_or_eq.1 earlier
  · exact unresumed since before
  · exact here u

theorem Acts.owner_of_held (acts : run.Acts k st before agent behind config)
    (code : st.code? g = some (.guard r .held))
    (uses : (⟨st, before ++ agent :: behind⟩ : Crew V C).picture.Uses t g) : st.owner r = some t := by
  obtain ⟨u, on, owns⟩ := acts.sound.warded.held (guard?_of_code? code)
  obtain rfl := acts.sound.warded.apart (.inl on) uses
  exact owns

/-! ### What a step does to a guard -/

/-- A guard that waits is on top of the chain of a task, which is in line for the resource or was handed it. -/
theorem Passage.of_waiting {c : Crew V C} (sound : c.Sound) (code : c.state.code? g = some (.guard r (.waiting b v)))
    (uses : c.picture.Uses t g) : run.Passage t g b r v k c := by
  obtain ⟨u, top, rests, line⟩ := sound.warded.parked (guard?_of_code? code)
  obtain rfl : u = t := sound.warded.apart (.inl (.of_base ((base_rests rests).trans top))) uses
  exact .waits code uses top line

/-- A guard that is resumed calls its body. -/
theorem Passage.of_calls (acts : run.Acts k st before agent behind config) (label : agent.resumed? st = some (t, g))
    {after : Focus V C} {rest : List (Activation V C)} (calls : State.Calls st t g b config.state)
    (code : config.state.code? g = some (.guard r .held))
    (onwards : config.agent = ⟨.code (.answer (.jump b v)), .frame t g after :: rest⟩) :
    run.Passage t g b r v (k + 1) ⟨config.state, before ++ config.agent :: behind⟩ := by
  have top : config.state.top t = some b := (calls.top t).trans (if_pos rfl)
  have link : config.state.caller b = some g := (calls.caller b).trans (if_pos rfl)
  have here : ⟨.code (.answer (.jump b v)), .frame t g after :: rest⟩ ∈ before ++ config.agent :: behind :=
    mem_of_moved onwards
  refine .called (j := k) ⟨acts.bound, acts.label.trans label, ?_, ?_, ?_, ?_⟩ (Nat.lt_succ_self k)
    (fun since earlier => by omega) code link top here
  · rw [acts.crew]
    exact calls.awaited
  · rw [acts.next]
    exact guard?_of_code? code
  · rw [acts.next]
    exact top
  · rw [acts.next]
    exact link

/-- A guard that waits answers with nothing but a suspension. -/
theorem Acts.suspended_of_waiting {answer : Answer V} {after : Focus V C} {rest : List (Activation V C)}
    (acts : run.Acts k st before ⟨.code (.answer answer), .frame t g after :: rest⟩ behind config)
    (code : st.code? g = some (.guard r (.waiting b v))) : answer = .suspended := by
  have guard := guard?_of_code? code
  obtain ⟨program, focus, awaits⟩ := (acts.sound.steady ⟨.code (.answer answer), .frame t g after :: rest⟩
    (by simp)).first rfl (show st.guard? g ≠ none by simp [guard])
  have suspends : program = .answer .suspended := awaits guard
  simpa [suspends] using focus

/-- A guard in line for its resource stays there, or it is woken and calls its body. -/
theorem Passage.of_waits (acts : run.Acts k st before agent behind config)
    (code : st.code? g = some (.guard r (.waiting b v)))
    (uses : (⟨st, before ++ agent :: behind⟩ : Crew V C).picture.Uses t g) :
    run.Passage t g b r v (k + 1) ⟨config.state, before ++ config.agent :: behind⟩ := by
  have sound := acts.sound
  by_cases label : ∃ u, agent.resumed? st = some (u, g)
  · obtain ⟨u, label⟩ := label
    obtain rfl := acts.task_of_resumed label uses
    obtain ⟨value, error, st₁, resumption, y, rest, given, resumed, onwards⟩ :=
      Config.given_of_does acts.acyclic acts.does label
    have code₁ : st₁.code? g = some (.guard r (.waiting b v)) := (code?_of_frames given.frames g).trans code
    obtain ⟨answer, rfl, heeds⟩ := heeds_resume code₁ resumed
    cases heeds with
    | @calls _ body kept _ well calls brings =>
      obtain ⟨rfl, rfl⟩ : b = body ∧ v = kept := by simpa using brings
      cases given with
      | cancelled => cases well
      | top focus found first =>
        have calls := calls.before (keepsChains_unloaded st u) rfl
        obtain ⟨r', _, here, held⟩ := calls.guard
        obtain ⟨rfl, _⟩ : r = r' ∧ _ = _ := by simpa using code.symm.trans here
        exact .of_calls acts label calls held onwards
  · have code' := acts.code code fun u same => label ⟨u, same⟩
    refine .of_waiting acts.sound_next code' ?_
    obtain ⟨u, top, rests, _⟩ := sound.warded.parked (guard?_of_code? code)
    obtain rfl : u = t := sound.warded.apart (.inl (.of_base ((base_rests rests).trans top))) uses
    have anchor : (⟨st, before ++ agent :: behind⟩ : Crew V C).picture.anchor u = some g := by
      refine (anchor_of_plain ?_).trans top
      obtain stage | stage | stage := rests <;> simp [Plain, stage]
    have mine {h : FrameId} (inside : (⟨st, before ++ agent :: behind⟩ : Crew V C).picture.stage u = some (.inside h)) :
        h = g := by
      obtain stage | stage | stage := rests
      · exact absurd (inside.symm.trans stage) (by simp)
      · exact absurd (inside.symm.trans stage) (by simp)
      · simpa using inside.symm.trans stage
    cases acts.shifts (acts.known_of_anchor anchor) with
    | stays stays => exact .inl (.of_anchor acts.sound_next.warded.toWoven (stays.anchor.trans anchor))
    | puts _ _ inside stage | relinks _ _ inside stage => exact .inr (stage.trans (mine inside ▸ inside))
    | calls _ _ first _ inside =>
      obtain rfl := Option.some.inj (first.symm.trans top)
      exact .inr inside
    | returns ends same inside | ends ends same inside =>
      subst same
      obtain rfl := mine inside
      obtain ⟨_, rfl⟩ | ⟨_, rfl⟩ := ends <;> cases acts.suspended_of_waiting code
    | jumps same inside =>
      subst same
      obtain rfl := mine inside
      cases acts.suspended_of_waiting code

/-- Neither a guard nor its body is resumed while the run of the task goes from one to the other. -/
theorem Acts.unresumed_called (acts : run.Acts k st before agent behind config) {after : Focus V C}
    {rest : List (Activation V C)} (link : st.caller b = some g) (top : st.top t = some b)
    (member : ⟨.code (.answer (.jump b v)), .frame t g after :: rest⟩ ∈ before ++ agent :: behind) (u : TaskId) :
    run.resumed k ≠ some (u, b) ∧ run.resumed k ≠ some (u, g) := by
  rw [acts.label]
  obtain same | member := mem_replace (show _ ∈ before ++ (agent.config st).agent :: behind from member)
  · obtain rfl : _ = agent := same
    simp [Agent.resumed?, Agent.topAfterJump, top, acts.acyclic.ne_caller link]
  · have run' : (t, .inside g) ∈ (⟨.code (.answer (.jump b v)), .frame t g after :: rest⟩ : Agent V C).runs := by
      simp [Agent.runs, Activation.run?]
    have aside := acts.aside member run'
    exact ⟨aside.unresumed (acts.uses_top member run' (by simp) top) u, aside.unresumed (acts.uses_inside member run') u⟩

/-- The run of a task goes on at the body that a guard called. -/
theorem Passage.of_called (acts : run.Acts k st before agent behind config) {after : Focus V C}
    {rest : List (Activation V C)} (enters : run.CallsBody j t g b r) (earlier : j < k)
    (unresumed : ∀ {m u}, j < m → m < k → run.resumed m ≠ some (u, b)) (code : st.code? g = some (.guard r .held))
    (link : st.caller b = some g) (top : st.top t = some b)
    (member : ⟨.code (.answer (.jump b v)), .frame t g after :: rest⟩ ∈ before ++ agent :: behind) :
    run.Passage t g b r v (k + 1) ⟨config.state, before ++ config.agent :: behind⟩ := by
  have calm := acts.unresumed_called link top member
  have unresumed' {m : Nat} {u : TaskId} := unresumed_succ (m := m) (u := u) unresumed fun u => (calm u).1
  have code' := acts.code code fun u label => (calm u).2 (acts.label.trans label)
  obtain same | member := mem_replace (show _ ∈ before ++ (agent.config st).agent :: behind from member)
  · obtain rfl : _ = agent := same
    obtain ⟨onwards, frames, task, found, top', inputs⟩ := acts.lands top (acts.acyclic.ne_caller link)
    have first : config.state.top t = some b := (top_of_get? found).trans top'
    have link' : config.state.caller b = some g := (congrFun (caller_of_frames frames) b).trans link
    have here : (⟨.trampoline t after, rest⟩ : Agent V C) ∈ before ++ config.agent :: behind :=
      mem_of_moved onwards
    have next := acts.sound_next.stage_of_run here (show (t, .next) ∈ _ by simp [Agent.runs, Focus.run?])
    exact .landed enters (by omega) unresumed' code' (.of_top acts.sound_next.warded.toWoven next first link' .body) first
      ⟨task, found, inputs⟩ here
  · have run' : (t, .inside g) ∈ (⟨.code (.answer (.jump b v)), .frame t g after :: rest⟩ : Agent V C).runs := by
      simp [Agent.runs, Activation.run?]
    exact .called enters (by omega) unresumed' code'
      (((acts.stays member run').caller (acts.uses_top member run' (by simp) top)).trans link)
      ((acts.aside member run').top top) (mem_original member)

/-- The body is resumed first with the value that the guard was resumed with first. -/
theorem Acts.begins (acts : run.Acts k st before agent behind config) {after : Focus V C}
    {rest : List (Activation V C)} (enters : run.CallsBody j t g b r) (earlier : j < k)
    (unresumed : ∀ {m u}, j < m → m < k → run.resumed m ≠ some (u, b)) (code : st.code? g = some (.guard r .held))
    (covers : (⟨st, before ++ agent :: behind⟩ : Crew V C).picture.Covers t g (run.StandsIn j t g b k))
    (top : st.top t = some b) (loaded : ∃ task, st.tasks.get? t = some task ∧ task.inputs = (v, none))
    (member : ⟨.trampoline t after, rest⟩ ∈ before ++ agent :: behind) :
    agent = ⟨.trampoline t after, rest⟩ ∧ run.BodyBegins j k t g b r v ∨
      ⟨.trampoline t after, rest⟩ ∈ before ++ behind ∧ ∀ u, run.resumed k ≠ some (u, b) := by
  obtain same | member := mem_replace (show _ ∈ before ++ (agent.config st).agent :: behind from member)
  · obtain rfl : _ = agent := same
    refine .inl ⟨rfl, enters, earlier, unresumed, ⟨_, _, _, _, _, acts, by simp [Agent.resumed?, top], ?_⟩, ?_⟩
    · obtain ⟨task, found, inputs⟩ := loaded
      obtain ⟨value, error⟩ : task.value = v ∧ task.error = none := by simpa [Task.inputs] using inputs
      simp [Config.resume?, Agent.config, found, (top_of_get? found).symm.trans top, value, error]
    · rw [acts.crew]
      exact acts.owner_of_held code (covers.uses acts.sound.warded.toWoven)
  · have run' : (t, .next) ∈ (⟨.trampoline t after, rest⟩ : Agent V C).runs := by simp [Agent.runs, Focus.run?]
    refine .inr ⟨member, fun u resumed => ?_⟩
    exact (acts.aside member run').unresumed (acts.uses_top member run' (by simp) top) u (acts.label.symm.trans resumed)

theorem Passage.of_landed (acts : run.Acts k st before agent behind config) {after : Focus V C}
    {rest : List (Activation V C)} (enters : run.CallsBody j t g b r) (earlier : j < k)
    (unresumed : ∀ {m u}, j < m → m < k → run.resumed m ≠ some (u, b)) (code : st.code? g = some (.guard r .held))
    (covers : (⟨st, before ++ agent :: behind⟩ : Crew V C).picture.Covers t g (run.StandsIn j t g b k))
    (top : st.top t = some b) (loaded : ∃ task, st.tasks.get? t = some task ∧ task.inputs = (v, none))
    (member : ⟨.trampoline t after, rest⟩ ∈ before ++ agent :: behind) :
    run.Passage t g b r v (k + 1) ⟨config.state, before ++ config.agent :: behind⟩ := by
  have uses := covers.uses acts.sound.warded.toWoven
  obtain ⟨rfl, begins⟩ | ⟨member, calm⟩ := acts.begins enters earlier unresumed code covers top loaded member
  · have code' : config.state.code? g = some (.guard r .held) := acts.code code fun u resumed => by
      obtain ⟨_, _, _, _, _, same, _⟩ := acts.jumps_of_covered covers resumed
      cases same
    obtain kept | ⟨_, _, _, _, _, same, _⟩ | ⟨_, _, _, _, _, same, _⟩ := acts.covers earlier.le covers
    · exact .runs begins (Nat.lt_succ_self k) code' kept
    · cases same
    · cases same
  · have run' : (t, .next) ∈ (⟨.trampoline t after, rest⟩ : Agent V C).runs := by simp [Agent.runs, Focus.run?]
    have aside := acts.aside member run'
    have covers' := (acts.stays member run').covers acts.sound.warded.toWoven acts.sound_next.warded.toWoven covers
    exact .landed enters (by omega) (unresumed_succ unresumed calm) (acts.code code (aside.unresumed uses))
      ⟨covers'.above, covers'.outside, fun on link => (covers'.only on link).mono (Nat.le_succ k)⟩ (aside.top top)
      (aside.inputs (· = (v, none)) loaded) (mem_original member)

/-- A frame that finishes leaves its result to the guard that it returns to. -/
theorem Forwards.of_finishes {x : FrameId} {result : Except (Error V) V} {after : Focus V C}
    {rest : List (Activation V C)}
    (acts : run.Acts k st before ⟨.code (.answer (.ofResult result)), .frame t x after :: rest⟩ behind config)
    (code : st.code? g = some (.guard r .held)) (link : st.caller x = some g) :
    run.Forwards k t g r result (k + 1) ⟨config.state, before ++ config.agent :: behind⟩ := by
  have code' := acts.code code fun u label => by cases result <;> simp [Agent.resumed?, Answer.ofResult] at label
  have clear := run.cleared k acts.bound.le
  rw [acts.crew] at clear
  have cleared := clear ⟨.code (.answer (.ofResult result)), .frame t x after :: rest⟩
    (List.mem_append_right _ List.mem_cons_self) List.mem_cons_self
  obtain ⟨onwards, _, top, loaded⟩ := acts.hands_back link cleared
  have here : (⟨.trampoline t after, rest⟩ : Agent V C) ∈ before ++ config.agent :: behind :=
    mem_of_moved onwards
  exact .next code' top loaded here

/-- A guard that is next lets go, and finishes with the result that it has. -/
theorem Forwards.acts (acts : run.Acts k st before agent behind config) {m : Nat} {result : Except (Error V) V}
    (later : m < k) (forwards : run.Forwards m t g r result k ⟨st, before ++ agent :: behind⟩) :
    run.Forwards m t g r result (k + 1) ⟨config.state, before ++ config.agent :: behind⟩ := by
  cases forwards with
  | done later earlier relays => exact .done later (by omega) relays
  | @next after rest code top loaded member =>
    obtain same | member := mem_replace (show _ ∈ before ++ (agent.config st).agent :: behind from member)
    · obtain rfl : _ = agent := same
      obtain ⟨task, found, answers⟩ := loaded
      obtain ⟨releases, foreign, onwards⟩ := acts.lets_go code top found
      refine .done later (Nat.lt_succ_self k) ⟨releases, foreign, after, rest, ?_⟩
      rw [acts.next, onwards, ← answers]
      exact List.mem_append_right _ List.mem_cons_self
    · have run' : (t, .next) ∈ (⟨.trampoline t after, rest⟩ : Agent V C).runs := by simp [Agent.runs, Focus.run?]
      have aside := acts.aside member run'
      exact .next (acts.code code (aside.unresumed (acts.uses_top member run' (by simp) top))) (aside.top top)
        (aside.inputs (fun inputs => Answer.forward inputs.1 inputs.2 = _) loaded) (mem_original member)

theorem Forwards.idle {c c' : Crew V C} (waits : Waits c c') {m : Nat} {result : Except (Error V) V}
    (forwards : run.Forwards m t g r result k c) : run.Forwards m t g r result (k + 1) c' := by
  cases forwards with
  | done later earlier relays => exact .done later (by omega) relays
  | next code top loaded member =>
    have member' := waits.stays member (by simp)
    obtain ⟨st', agents'⟩ := c'
    obtain ⟨thread, rfl⟩ := waits.state
    exact .next code top loaded member'

theorem Forwards.later {m n : Nat} {result : Except (Error V) V}
    (forwards : run.Forwards m t g r result k (run.crew k)) (earlier : m < k) (since : k ≤ n) (bound : n ≤ run.length) :
    run.Forwards m t g r result n (run.crew n) := by
  induction n, since using Nat.le_induction with
  | base => exact forwards
  | succ n since inductionHypothesis =>
    have now := inductionHypothesis (by omega)
    obtain ⟨st, before, agent, behind, config, acts⟩ | ⟨idle, waits⟩ := run.acts_or_waits bound
    · rw [acts.crew] at now
      rw [acts.next]
      exact now.acts acts (by omega)
    · exact now.idle waits

/-- What stands in for the body goes on, or finishes, or a frame jumps. -/
theorem Passage.of_runs (acts : run.Acts k st before agent behind config) (begins : run.BodyBegins j l t g b r v)
    (earlier : l < k) (code : st.code? g = some (.guard r .held))
    (covers : (⟨st, before ++ agent :: behind⟩ : Crew V C).picture.Covers t g (run.StandsIn j t g b k)) :
    run.Passage t g b r v (k + 1) ⟨config.state, before ++ config.agent :: behind⟩ := by
  have since : j ≤ k := (begins.later.trans earlier).le
  have jumped {f target : FrameId} {value : V} {after : Focus V C} {rest : List (Activation V C)}
      (same : agent = ⟨.code (.answer (.jump target value)), .frame t f after :: rest⟩)
      (past : Reaches st.caller g target) :
      run.Passage t g b r v (k + 1) ⟨config.state, before ++ config.agent :: behind⟩ := by
    subst same
    exact .leapt begins earlier (acts.leaps past) (Nat.lt_succ_self k)
  by_cases label : ∃ u, agent.resumed? st = some (u, g)
  · obtain ⟨u, label⟩ := label
    obtain ⟨f, target, value, after, rest, same, past⟩ := acts.jumps_of_covered covers label
    exact jumped same past
  · have code' := acts.code code fun u same => label ⟨u, same⟩
    obtain kept | ⟨x, result, after, rest, stands, same, link⟩ | ⟨f, target, value, after, rest, same, past⟩ :=
      acts.covers since covers
    · exact .runs begins (by omega) code' kept
    · subst same
      have finishes : run.FinishesTo k t g x result := ⟨_, _, _, _, _, _, acts, by rw [acts.crew]; exact link⟩
      exact .ended begins earlier (Nat.lt_succ_self k) ⟨x, stands, finishes⟩ (.of_finishes acts code link)
    · exact jumped same past

/-- A step takes a guard on its way, or leaves it where it is. -/
theorem Passage.acts (acts : run.Acts k st before agent behind config)
    (passage : run.Passage t g b r v k ⟨st, before ++ agent :: behind⟩) :
    run.Passage t g b r v (k + 1) ⟨config.state, before ++ config.agent :: behind⟩ := by
  cases passage with
  | waits code uses => exact .of_waits acts code uses
  | called enters earlier unresumed code link top member =>
    exact .of_called acts enters earlier unresumed code link top member
  | landed enters earlier unresumed code covers top loaded member =>
    exact .of_landed acts enters earlier unresumed code covers top loaded member
  | runs begins earlier code covers => exact .of_runs acts begins earlier code covers
  | ended begins since earlier ends forwards => exact .ended begins since (by omega) ends (forwards.acts acts earlier)
  | leapt begins since leaps earlier => exact .leapt begins since leaps (by omega)

/-- A guard stays where it is while nobody makes a step. -/
theorem Passage.idle {c c' : Crew V C} (waits : Waits c c') (idle : run.resumed k = none)
    (passage : run.Passage t g b r v k c) : run.Passage t g b r v (k + 1) c' := by
  have stays {p : Program V C} {stack : List (Activation V C)} (member : ⟨.code p, stack⟩ ∈ c.agents) :=
    waits.stays member (by simp)
  have stays' {u : TaskId} {after : Focus V C} {stack : List (Activation V C)}
      (member : ⟨.trampoline u after, stack⟩ ∈ c.agents) := waits.stays member (by simp)
  have picture := waits.picture
  have covered {j : Nat} (covers : c.picture.Covers t g (run.StandsIn j t g b k)) :
      c'.picture.Covers t g (run.StandsIn j t g b (k + 1)) := by
    rw [picture]
    exact ⟨covers.above, covers.outside, fun uses link => (covers.only uses link).mono (Nat.le_succ k)⟩
  have here (u : TaskId) : run.resumed k ≠ some (u, b) := by simp [idle]
  have forwarded {m : Nat} {result : Except (Error V) V} (forwards : run.Forwards m t g r result k c) :
      run.Forwards m t g r result (k + 1) c' := forwards.idle waits
  obtain ⟨st', agents'⟩ := c'
  obtain ⟨thread, rfl⟩ := waits.state
  cases passage with
  | waits code uses top line => exact .waits code (picture ▸ uses) top line
  | called enters earlier unresumed code link top member =>
    exact .called enters (by omega) (unresumed_succ unresumed here) code link top (stays member)
  | landed enters earlier unresumed code covers top loaded member =>
    exact .landed enters (by omega) (unresumed_succ unresumed here) code (covered covers) top loaded (stays' member)
  | runs begins earlier code covers => exact .runs begins (by omega) code (covered covers)
  | ended begins since earlier ends forwards => exact .ended begins since (by omega) ends (forwarded forwards)
  | leapt begins since leaps earlier => exact .leapt begins since leaps (by omega)

/-- A guard that was on its way at some step is on its way ever after. -/
theorem Passage.later {n : Nat} (passage : run.Passage t g b r v k (run.crew k)) (since : k ≤ n)
    (bound : n ≤ run.length) : run.Passage t g b r v n (run.crew n) := by
  induction n, since using Nat.le_induction with
  | base => exact passage
  | succ n since inductionHypothesis =>
    have now := inductionHypothesis (by omega)
    obtain ⟨st, before, agent, behind, config, acts⟩ | ⟨idle, waits⟩ := run.acts_or_waits bound
    · rw [acts.crew] at now
      rw [acts.next]
      exact now.acts acts
    · exact now.idle waits idle

end Run

end Crew

end Tasking
