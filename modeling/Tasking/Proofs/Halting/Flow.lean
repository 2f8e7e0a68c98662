import Tasking.Proofs.Halting.Debts
import Tasking.Proofs.Halting.Wear

/-! # Where a thread goes

While a thread drives a scheduler, it resumes frames, and the code of a frame may drive a scheduler, unwind or
call again before it answers.  So frames are at work inside of each other; `Config.heirs` tells who they are after a
step.  `Config.Flows` lists the steps of such a thread, each with the frames at work, and `Config.Nested` says what the stack
holds for each of them.

Debts are only paid, but for frames that begin to run code and for native functions, and they
become less whenever code goes on (`Config.Flows.paid`).
-/

namespace Tasking

variable {V C : Type}

namespace Config

open State

/-- The frame that the next step resumes, if it resumes one. -/
def wakes? (c : Config V C) : Option FrameId :=
  match c.focus with
  | .code (.unwind t target _ _) => (c.state.top t).filter (· ≠ target)
  | _ => (c.agent.resumed? c.state).map Prod.snd

/-- A frame that was resumed has answered. -/
def answered (c : Config V C) : Bool :=
  match c.focus, c.stack with
  | .code (.answer _), .frame _ _ _ :: _ | .code (.answer _), .cancel _ _ _ _ _ :: _ => true
  | _, _ => false

/-- The frames among those at work that go on: not the one that has answered. -/
def staying (c : Config V C) (fs : List FrameId) : List FrameId := if c.answered then fs.tail else fs

/-- The frames at work after a step, innermost first. -/
def heirs (c : Config V C) (fs : List FrameId) : List FrameId := c.wakes?.toList ++ c.staying fs

/-- What a step of a thread does that drives a scheduler, and the frames at work before and after. -/
inductive Flows : Config V C → List FrameId → Config V C → List FrameId → Prop where
  | goes {st st' : State V C} {p q : Program V C} {stack : List (Activation V C)} {fs : List FrameId}
      (busy : ∀ a, p ≠ .answer a) (less : q.height < p.height) :
      Flows ⟨st, .code p, stack⟩ fs ⟨st', .code q, stack⟩ fs
  | calls {st : State V C} {g : RegistryId} {name : String} {context : Context} {arguments : List V}
      {next : Except HostError (Answer V) → Program V C} {q : Program V C} {stack : List (Activation V C)}
      {fs : List FrameId} :
      Flows ⟨st, .code (.callNative g name context arguments next), stack⟩ fs
        ⟨st, .code q, .call (fun a => next (.ok a)) :: stack⟩ fs
  | opens {st st' : State V C} {x : ExclusiveId} {p q : Program V C} {next : Answer V → Program V C}
      {stack : List (Activation V C)} {fs : List FrameId} (busy : ∀ a, p ≠ .answer a) (inside : q.height < p.height)
      (less : ⨆ a, (next a).height + 1 < p.height) :
      Flows ⟨st, .code p, stack⟩ fs ⟨st', .code q, .opened x :: .call next :: stack⟩ fs
  | drives {st : State V C} {s : SchedulerId} {p : Program V C} {next : Nat → Program V C}
      {stack : List (Activation V C)} {fs : List FrameId} (busy : ∀ a, p ≠ .answer a)
      (less : ⨆ n, (next n).height + 1 < p.height) :
      Flows ⟨st, .code p, stack⟩ fs ⟨st, .drain s 0 next, stack⟩ fs
  /-- A frame is cancelled by hand. -/
  | unwinds {st st' : State V C} {t : TaskId} {g target : FrameId} {value : V} {rest : List FrameId}
      {next : Program V C} {resumption : Resumption V C} {stack : List (Activation V C)} {fs : List FrameId}
      (wakes : wakes? ⟨st, .code (.unwind t target value next), stack⟩ = some g)
      (stirs : Stirs st g resumption st') :
      Flows ⟨st, .code (.unwind t target value next), stack⟩ fs ⟨st', .code resumption.program,
        (resumption.opened.map .opened).toList ++ .cancel t rest target value (.code next) :: stack⟩ (g :: fs)
  | hands {st : State V C} {a : Answer V} {next : Answer V → Program V C} {stack : List (Activation V C)}
      {fs : List FrameId} :
      Flows ⟨st, .code (.answer a), .call next :: stack⟩ fs ⟨st, .code (next a), stack⟩ fs
  | closes {st : State V C} {x : ExclusiveId} {a : Answer V} {stack : List (Activation V C)}
      {fs : List FrameId} :
      Flows ⟨st, .code (.answer a), .opened x :: stack⟩ fs ⟨st.closePayload x, .code (.answer a), stack⟩ fs
  | takes {st st' : State V C} {s : SchedulerId} {t : TaskId} {n : Nat} {next : Nat → Program V C}
      {stack : List (Activation V C)} {fs : List FrameId} (busy : st.queue s ≠ [])
      (frames : st'.frames = st.frames) :
      Flows ⟨st, .drain s n next, stack⟩ fs ⟨st', .trampoline t (.drain s (n + 1) next), stack⟩ fs
  | drained {st : State V C} {s : SchedulerId} {n : Nat} {next : Nat → Program V C}
      {stack : List (Activation V C)} {fs : List FrameId} (empty : st.queue s = []) :
      Flows ⟨st, .drain s n next, stack⟩ fs ⟨st, .code (next n), stack⟩ fs
  | resumes {st st' : State V C} {t : TaskId} {f : FrameId} {after : Focus V C} {resumption : Resumption V C}
      {stack : List (Activation V C)} {fs : List FrameId} (top : st.top t = some f)
      (stirs : Stirs st f resumption st') :
      Flows ⟨st, .trampoline t after, stack⟩ fs ⟨st', .code resumption.program,
        (resumption.opened.map .opened).toList ++ .frame t f after :: stack⟩ (f :: fs)
  | suspends {st st' : State V C} {t : TaskId} {f g : FrameId} {after : Focus V C}
      {stack : List (Activation V C)} {fs : List FrameId} (frames : st'.frames = st.frames) :
      Flows ⟨st, .code (.answer .suspended), .frame t f after :: stack⟩ (g :: fs) ⟨st', after, stack⟩ fs
  | returns {st st' : State V C} {t : TaskId} {f g caller : FrameId} {a : Answer V} {after : Focus V C}
      {stack : List (Activation V C)} {fs : List FrameId} (final : a.IsFinal) (link : st.caller f = some caller)
      (top : st'.top t = some caller) (frames : st'.frames = st.frames) :
      Flows ⟨st, .code (.answer a), .frame t f after :: stack⟩ (g :: fs) ⟨st', .trampoline t after, stack⟩ fs
  | finishes {st st' : State V C} {t : TaskId} {f g : FrameId} {a : Answer V} {after : Focus V C}
      {stack : List (Activation V C)} {fs : List FrameId} (frames : st'.frames = st.frames)
      (live : st.life t = some .running) (ended : ∃ life, st'.life t = some life ∧ life.isTerminal = true) :
      Flows ⟨st, .code (.answer a), .frame t f after :: stack⟩ (g :: fs) ⟨st', after, stack⟩ fs
  | lands {st st' : State V C} {t : TaskId} {f g target : FrameId} {value : V} {after : Focus V C}
      {stack : List (Activation V C)} {fs : List FrameId} (frames : st'.frames = st.frames) :
      Flows ⟨st, .code (.answer (.jump target value)), .frame t f after :: stack⟩ (g :: fs)
        ⟨st', .trampoline t after, stack⟩ fs
  | leaps {st st' : State V C} {t : TaskId} {f g h target : FrameId} {value : V} {rest : List FrameId}
      {after : Focus V C} {resumption : Resumption V C} {stack : List (Activation V C)} {fs : List FrameId}
      (wakes : wakes? ⟨st, .code (.answer (.jump target value)), .frame t f after :: stack⟩ = some h)
      (stirs : Stirs st h resumption st') :
      Flows ⟨st, .code (.answer (.jump target value)), .frame t f after :: stack⟩ (g :: fs)
        ⟨st', .code resumption.program, (resumption.opened.map .opened).toList ++
          .cancel t rest target value (.trampoline t after) :: stack⟩ (h :: fs)
  | cancels {st st' : State V C} {t : TaskId} {g h target : FrameId} {a : Answer V} {value : V}
      {rest : List FrameId} {after : Focus V C} {resumption : Resumption V C} {stack : List (Activation V C)}
      {fs : List FrameId} (stirs : Stirs st h resumption st') :
      Flows ⟨st, .code (.answer a), .cancel t (h :: rest) target value after :: stack⟩ (g :: fs)
        ⟨st', .code resumption.program, (resumption.opened.map .opened).toList ++
          .cancel t rest target value after :: stack⟩ (h :: fs)
  | unwound {st : State V C} {t : TaskId} {g target : FrameId} {a : Answer V} {value : V} {after : Focus V C}
      {stack : List (Activation V C)} {fs : List FrameId} :
      Flows ⟨st, .code (.answer a), .cancel t [] target value after :: stack⟩ (g :: fs)
        ⟨landAt st t target value, after, stack⟩ fs

end Config

/-- What drives a scheduler: a thread that goes on with the number of runs, and what waits below. -/
structure Drive (V C : Type) where
  scheduler : SchedulerId
  next : Nat → Program V C
  below : List (Activation V C)

namespace Drive

/-- A thread takes the ready tasks of a scheduler, one after another.  If no frame is at work then this is the
drive in question. -/
def Goes (d : Drive V C) (fs : List FrameId) (focus : Focus V C) : Prop :=
  ∃ s n next, focus = .drain s n next ∧ (fs = [] → s = d.scheduler ∧ next = d.next)

/-- Where a thread may be that drives a scheduler. -/
def Poised (d : Drive V C) (fs : List FrameId) : Focus V C → Prop
  | .code _ => fs ≠ []
  | .trampoline _ after => d.Goes fs after
  | focus => d.Goes fs focus

/-- The stack holds what the frames at work will return to. -/
inductive Holds (d : Drive V C) : List FrameId → List (Activation V C) → Prop where
  | base {stack : List (Activation V C)} (same : stack = d.below) : Holds d [] stack
  | call {next : Answer V → Program V C} {f : FrameId} {fs : List FrameId} {stack : List (Activation V C)}
      (rest : Holds d (f :: fs) stack) : Holds d (f :: fs) (.call next :: stack)
  | opened {x : ExclusiveId} {f : FrameId} {fs : List FrameId} {stack : List (Activation V C)}
      (rest : Holds d (f :: fs) stack) : Holds d (f :: fs) (.opened x :: stack)
  | frame {t : TaskId} {f g : FrameId} {fs : List FrameId} {after : Focus V C} {stack : List (Activation V C)}
      (goes : d.Goes fs after) (rest : Holds d fs stack) : Holds d (g :: fs) (.frame t f after :: stack)
  | cancel {t : TaskId} {g target : FrameId} {doomed fs : List FrameId} {value : V} {after : Focus V C}
      {stack : List (Activation V C)} (goes : d.Poised fs after) (busy : ¬ d.Goes fs after) (rest : Holds d fs stack) :
      Holds d (g :: fs) (.cancel t doomed target value after :: stack)

end Drive

namespace Config

open State

variable {d : Drive V C} {fs fs' : List FrameId}

/-- The frames at work are those that the stack waits for. -/
structure Nested (d : Drive V C) (c : Config V C) (fs : List FrameId) : Prop where
  focus : d.Poised fs c.focus
  stack : d.Holds fs c.stack

/-- The drive is over: the thread goes on below it, and no task is ready. -/
def Returned (d : Drive V C) (c : Config V C) : Prop :=
  c.state.queue d.scheduler = [] ∧ ∃ n, c.focus = .code (d.next n) ∧ c.stack = d.below

theorem holds_opened {f : FrameId} {stack : List (Activation V C)} (opened : Option ExclusiveId)
    (holds : d.Holds (f :: fs) stack) : d.Holds (f :: fs) ((opened.map Activation.opened).toList ++ stack) := by
  cases opened with
  | none => exact holds
  | some x => exact .opened holds

theorem poised_of_goes {focus : Focus V C} (goes : d.Goes fs focus) : d.Poised fs focus := by
  obtain ⟨s, n, next, rfl, base⟩ := goes
  exact ⟨s, n, next, rfl, base⟩

theorem not_goes_trampoline {t : TaskId} {after : Focus V C} : ¬ d.Goes fs (.trampoline t after) := by
  rintro ⟨_, _, _, same, _⟩
  cases same

theorem not_goes_code {p : Program V C} : ¬ d.Goes fs (.code p) := by
  rintro ⟨_, _, _, same, _⟩
  cases same

/-- A thread that drives a scheduler does so until it returns from that. -/
theorem Flows.nested {c c' : Config V C} (flows : Flows c fs c' fs') (nested : c.Nested d fs) :
    c'.Nested d fs' ∨ fs' = [] ∧ c'.Returned d := by
  cases flows with
  | goes => exact .inl ⟨nested.focus, nested.stack⟩
  | calls =>
    obtain ⟨f, fs, rfl⟩ := List.exists_cons_of_ne_nil nested.focus
    exact .inl ⟨by simp [Drive.Poised], .call nested.stack⟩
  | opens =>
    obtain ⟨f, fs, rfl⟩ := List.exists_cons_of_ne_nil nested.focus
    exact .inl ⟨by simp [Drive.Poised], .opened (.call nested.stack)⟩
  | drives =>
    have busy : fs ≠ [] := nested.focus
    exact .inl ⟨⟨_, _, _, rfl, fun none => absurd none busy⟩, nested.stack⟩
  | unwinds =>
    refine .inl ⟨by simp [Drive.Poised], holds_opened _ (.cancel ?_ not_goes_code nested.stack)⟩
    exact nested.focus
  | hands =>
    cases nested.stack with
    | call rest => exact .inl ⟨by simp [Drive.Poised], rest⟩
    | base => exact absurd rfl nested.focus
  | closes =>
    cases nested.stack with
    | opened rest => exact .inl ⟨by simp [Drive.Poised], rest⟩
    | base => exact absurd rfl nested.focus
  | takes =>
    obtain ⟨s, n, next, same, base⟩ := nested.focus
    cases same
    exact .inl ⟨⟨_, _, _, rfl, base⟩, nested.stack⟩
  | drained empty =>
    obtain ⟨s, n, next, same, base⟩ := nested.focus
    cases same
    cases fs with
    | nil =>
      obtain ⟨rfl, rfl⟩ := base rfl
      cases nested.stack with
      | base same => exact .inr ⟨rfl, empty, _, rfl, same⟩
    | cons f fs => exact .inl ⟨by simp [Drive.Poised], nested.stack⟩
  | resumes =>
    exact .inl ⟨by simp [Drive.Poised], holds_opened _ (.frame nested.focus nested.stack)⟩
  | suspends | finishes =>
    cases nested.stack with
    | frame goes rest => exact .inl ⟨poised_of_goes goes, rest⟩
  | returns | lands =>
    cases nested.stack with
    | frame goes rest => exact .inl ⟨goes, rest⟩
  | leaps =>
    cases nested.stack with
    | frame goes rest =>
      exact .inl ⟨by simp [Drive.Poised], holds_opened _ (.cancel goes not_goes_trampoline rest)⟩
  | cancels =>
    cases nested.stack with
    | cancel goes busy rest =>
      exact .inl ⟨by simp [Drive.Poised], holds_opened _ (.cancel goes busy rest)⟩
  | unwound =>
    cases nested.stack with
    | cancel goes busy rest => exact .inl ⟨goes, rest⟩

/-! ## Every step is one of these -/

section

variable {c c' : Config V C} {st : State V C} {stack : List (Activation V C)}

variable [Inhabited V]

/-- An answer goes to whatever waits for it. -/
theorem flows_of_deliver {a : Answer V} (acyclic : Acyclic st.caller) (nested : Nested d ⟨st, .code (.answer a), stack⟩ fs)
    (step : (⟨st, .code (.answer a), stack⟩ : Config V C).deliver a = .ok c') :
    Flows ⟨st, .code (.answer a), stack⟩ fs c' (heirs ⟨st, .code (.answer a), stack⟩ fs) := by
  obtain ⟨g, fs, rfl⟩ := List.exists_cons_of_ne_nil nested.focus
  cases does_of_deliver step with
  | passes detours => exact absurd rfl ((detours.2 _ rfl).1 a)
  | begins detours busy => exact absurd rfl (busy _)
  | rests => cases nested.stack
  | hands => exact .hands
  | closes => exact .closes
  | suspends parked => exact .suspends (Stops.park parked).1.frames
  | @returns _ t f caller _ result task after stack ends found top link =>
    have heirs : heirs ⟨st, .code (.answer a), .frame t f after :: stack⟩ (g :: fs) = fs := by
      rcases ends with ⟨_, rfl⟩ | ⟨_, rfl⟩ <;> rfl
    rw [heirs]
    refine .returns ?_ link ?_ rfl
    · rcases ends with ⟨_, rfl⟩ | ⟨_, rfl⟩ <;> trivial
    · simp only [State.top, get?_modifyTask, found, if_true]
      cases result <;> rfl
  | @finishes _ st' t f _ result task after stack ends found top link finished =>
    have heirs : heirs ⟨st, .code (.answer a), .frame t f after :: stack⟩ (g :: fs) = fs := by
      rcases ends with ⟨_, rfl⟩ | ⟨_, rfl⟩ <;> rfl
    rw [heirs]
    have left := becomes_modifyTask found fun task => { task with top := none }
    have ended : Ends st t result st' :=
      ends_of_finish found (left.trans (becomes_modifyTask left.self _)) rfl rfl rfl rfl finished
    exact .finishes ended.frames ended.live ended.terminal
  | @lands _ t f target value task after stack found top =>
    have heirs : heirs ⟨st, .code (.answer (.jump target value)), .frame t f after :: stack⟩ (g :: fs) = fs := by
      simp [Config.heirs, wakes?, staying, answered, agent, Agent.resumed?, top]
    rw [heirs]
    exact .lands rfl
  | @leaps _ st' t f h target value task rest after resumption stack found top path resumed =>
    have moved : ¬ h = target := acyclic.ne_of_path path
    have wakes : wakes? ⟨st, .code (.answer (.jump target value)), .frame t f after :: stack⟩ = some h := by
      simp [wakes?, agent, Agent.resumed?, top, moved]
    rw [heirs, wakes]
    exact .leaps wakes ((stirs_of_resume resumed).congr rfl)
  | cancels resumed => exact .cancels (stirs_of_resume resumed)
  | unwinds => exact .unwound

/-- Every step of a thread that drives a scheduler and whose code waits for nobody. -/
theorem flows_of_step (acyclic : Acyclic c.state.caller) (nested : c.Nested d fs)
    (present : ∀ condition limit next, c.focus ≠ .code (.await condition limit next))
    (step : c.step = .ok c') : Flows c fs c' (c.heirs fs) := by
  obtain ⟨st, focus, stack⟩ := c
  cases focus with
  | waiting | work | own | rest =>
    obtain ⟨_, _, _, same, _⟩ := nested.focus
    cases same
  | trampoline t after =>
    simp only [Config.step, resumeTop, bind_ok, task_ok] at step
    obtain ⟨task, found, step⟩ := step
    cases top : task.top with
    | none => simp [top] at step
    | some f =>
      simp only [top] at step
      obtain ⟨resumption, st', resumed, rfl⟩ := Crew.Sound.resumeFrame_ok step
      have first : st.top t = some f := (top_of_get? found).trans top
      have heirs : heirs ⟨st, .trampoline t after, stack⟩ fs = f :: fs := by
        simp [Config.heirs, wakes?, staying, answered, agent, Agent.resumed?, first]
      rw [heirs]
      exact .resumes first ((stirs_of_resume resumed).congr rfl)
  | drain s n next =>
    have empty (p : Program V C) (st₁ : State V C)
        (returns : (⟨st, .drain s n next, stack⟩ : Config V C).step = .ok ⟨st₁, .code p, stack⟩) :=
      (empty_of_drain returns).2
    have whole := step
    simp only [Config.step, runReady, bind_ok] at step
    obtain ⟨⟨next?, st₁⟩, taken, step⟩ := step
    cases next? with
    | none =>
      obtain rfl := pure_ok.1 step
      rcases takeReady_ok taken with ⟨_, rfl⟩ | ⟨_, _, impossible, _⟩
      · exact .drained (empty _ _ whole)
      · simp at impossible
    | some t =>
      simp only [beginRun, tryState, bind_ok, pure_ok] at step
      obtain ⟨_, ⟨st₂, begun, rfl⟩, rfl⟩ := step
      have busy : st.queue s ≠ [] := by
        rcases takeReady_ok taken with ⟨impossible, _⟩ | ⟨_, _, _, _, line, _⟩
        · cases impossible
        · simp [line]
      exact .takes busy ((Quiet.beginRun begun).1.frames.trans (Quiet.takeReady taken).frames)
  | code p =>
    cases p with
    | answer a => exact flows_of_deliver acyclic nested step
    | await condition limit next => exact absurd rfl (present condition limit next)
    | ask request next =>
      simp only [Config.step, stepCode, bind_ok, pure_ok] at step
      obtain ⟨⟨reply, st'⟩, served, rfl⟩ := step
      exact .goes (by simp) (Program.height_lt_iSup next reply)
    | newFrame label body next =>
      simp only [Config.step, stepCode, pure_ok] at step
      subst step
      exact .goes (by simp) (Program.height_lt_iSup next _)
    | newActor first handler next =>
      simp only [Config.step, stepCode, pure_ok] at step
      subst step
      exact .goes (by simp) (Program.height_lt_iSup next _)
    | register g name native next =>
      simp only [Config.step, stepCode, bind_ok, pure_ok] at step
      obtain ⟨⟨reply, st'⟩, _, rfl⟩ := step
      exact .goes (by simp) (Program.height_lt_iSup next _)
    | callNative g name context arguments next =>
      simp only [Config.step, stepCode, bind_ok] at step
      obtain ⟨registry, _, step⟩ := step
      split at step
      · obtain rfl := pure_ok.1 step
        exact .goes (by simp) (Program.height_lt_iSup next _)
      · obtain rfl := pure_ok.1 step
        exact .calls
    | drive s next =>
      obtain rfl := pure_ok.1 step
      exact .drives (by simp) (lt_add_one _)
    | within x t inside next =>
      simp only [Config.step, stepCode, bind_ok] at step
      obtain ⟨may, opens, step⟩ := step
      cases may with
      | true =>
        obtain rfl := pure_ok.1 step
        refine .opens (by simp) ?_ ?_
        · exact lt_of_le_of_lt (le_max_left _ _) (lt_add_one _)
        · refine lt_of_le_of_lt (Ordinal.iSup_le fun a => ?_) (lt_of_le_of_lt (le_max_right _ _) (lt_add_one _))
          exact Ordinal.le_iSup (fun reply => (next reply).height + 1) (some a)
      | false =>
        obtain rfl := pure_ok.1 step
        refine .goes (by simp) ?_
        have less : (next none).height < ⨆ reply, (next reply).height + 1 := Program.height_lt_iSup next none
        exact less.trans (lt_of_le_of_lt (le_max_right _ _) (lt_add_one _))
    | unwind t target value next =>
      simp only [Config.step, stepCode, unwind, bind_ok, check_ok, task_ok] at step
      obtain ⟨task, found, _, step⟩ := step
      split at step
      · next doomed walk =>
        obtain ⟨first, path⟩ := framesAbove_some walk
        have top : st.top t = (doomed ++ [target]).head? := (top_of_get? found).trans first.symm
        cases doomed with
        | nil =>
          obtain rfl := pure_ok.1 step
          have heirs : heirs ⟨st, .code (.unwind t target value next), stack⟩ fs = fs := by
            simp [Config.heirs, wakes?, staying, answered, top]
          rw [heirs]
          exact .goes (by simp) ((lt_add_one _).trans (lt_add_one _))
        | cons h rest =>
          obtain ⟨resumption, st', resumed, rfl⟩ := Crew.Sound.resumeFrame_ok
            (show (⟨st, .code (.unwind t target value next), stack⟩ : Config V C).resumeFrame t h default
              (some .cancelled) (.cancel t rest target value (.code next)) = .ok c' from step)
          have moved : ¬ h = target := acyclic.ne_of_path path
          have wakes : wakes? ⟨st, .code (.unwind t target value next), stack⟩ = some h := by
            simp [wakes?, top, Option.filter, moved]
          rw [heirs, wakes]
          exact .unwinds wakes (stirs_of_resume resumed)
      · simp at step

end

/-! ## Debts -/

/-- The frame for which code begins to run that nobody has paid for: a frame that is resumed and has code that
somebody wrote, or one that calls a native function. -/
def event? (c : Config V C) (fs : List FrameId) : Option FrameId :=
  match c.focus with
  | .code (.callNative _ _ _ _ _) => fs.head?
  | _ => c.wakes?.filter fun g => c.state.engages g

/-- The code of a frame goes on. -/
def Turns (c : Config V C) : Prop :=
  match c.focus, c.stack with
  | .code (.answer _), .call _ :: _ | .code (.answer _), .cancel _ [] _ _ (.code _) :: _ => True
  | .code (.answer _), _ => False
  | .code _, _ => True
  | .drain s _ _, _ => c.state.queue s = []
  | _, _ => False

/-- A frame that is resumed owes nothing, unless it runs code that somebody wrote. -/
theorem charge_resumed {among : FrameId → Bool} {st st' : State V C} {h : FrameId} {resumption : Resumption V C}
    (stirs : Stirs st h resumption st') (spared : st.engages h = true → among h = false) :
    charge among (h :: fs) resumption.program.debt = 0 := by
  cases made : st.engages h with
  | true => simp [charge, spared made]
  | false =>
    obtain ⟨⟨answer, rfl⟩, _⟩ := stirs.lowers_or_final made
    simp [Program.debt]

theorem staying_of_busy {st : State V C} {p : Program V C} {stack : List (Activation V C)}
    (busy : ∀ a, p ≠ .answer a) : staying ⟨st, .code p, stack⟩ fs = fs := by
  cases p with
  | answer a => exact absurd rfl (busy a)
  | _ => rfl

/-- Debts are only paid, unless code begins to run for a frame that has to pay, and less is owed when the code
of one that has to pay goes on. -/
theorem Flows.paid {c c' : Config V C} {among : FrameId → Bool} (flows : Flows c fs c' fs') (nested : c.Nested d fs)
    (quiet : ∀ g, c.event? fs = some g → among g = false) :
    Paid (c.debt among fs) (c'.debt among fs') ∧
      (c.Turns → (c.staying fs).head?.any among = true →
        (c'.debt among fs').IsDershowitzMannaLT (c.debt among fs)) := by
  cases flows with
  | goes busy less =>
    simp only [Config.debt, Focus.debt, Program.debt_eq busy, staying_of_busy busy]
    obtain ⟨paid, lower⟩ := paid_of_replace (Program.lt_of_mem_debt less)
    exact ⟨paid, fun _ => lower⟩
  | @calls st g name context arguments next q stack fs =>
    -- Nobody who has to pay calls a native function here.
    obtain ⟨f, fs, rfl⟩ := List.exists_cons_of_ne_nil nested.focus
    have spared : among f = false := quiet f rfl
    have nothing (debt : Multiset Ordinal.{0}) : charge among (f :: fs) debt = 0 := by simp [charge, spared]
    simp only [Config.debt, Activation.debts, nothing, zero_add]
    exact ⟨.inl rfl, fun _ pays => by simp [staying, answered, spared] at pays⟩
  | @opens st st' x p q next stack fs busy inside less =>
    obtain ⟨f, fs, rfl⟩ := List.exists_cons_of_ne_nil nested.focus
    simp only [Config.debt, Focus.debt, Activation.debts, Program.debt_eq busy, staying_of_busy busy, ← add_assoc,
      ← charge_add]
    have smaller : ∀ b ∈ q.debt + {⨆ a, (next a).height + 1}, b < p.height := by
      intro b member
      rcases Multiset.mem_add.1 member with here | here
      · exact Program.lt_of_mem_debt inside b here
      · exact (Multiset.mem_singleton.1 here) ▸ less
    obtain ⟨paid, lower⟩ := paid_of_replace smaller
    exact ⟨paid, fun _ => lower⟩
  | drives busy less =>
    simp only [Config.debt, Focus.debt, Focus.later, Program.debt_eq busy, staying_of_busy busy]
    obtain ⟨paid, lower⟩ := paid_of_replace fun b member => lt_of_eq_of_lt (Multiset.mem_singleton.1 member) less
    exact ⟨paid, fun _ => lower⟩
  | @unwinds st st' t g target value rest next resumption stack fs wakes stirs =>
    have spared : st.engages g = true → among g = false := fun made => quiet g (by simp [event?, wakes, made])
    simp only [Config.debt, Focus.debt, debts_opened, Activation.debts, charge_resumed stirs spared, zero_add,
      Focus.later]
    have smaller : ∀ b ∈ ({next.height + 1} : Multiset Ordinal.{0}), b < next.height + 1 + 1 := by
      simp
    obtain ⟨paid, lower⟩ := paid_of_replace smaller
    exact ⟨paid, fun _ => lower⟩
  | @hands st a next stack fs =>
    obtain ⟨f, fs, rfl⟩ := List.exists_cons_of_ne_nil nested.focus
    simp only [Config.debt, Focus.debt, Activation.debts, Program.debt_answer, charge_zero, zero_add]
    obtain ⟨paid, lower⟩ := paid_of_replace (Program.lt_of_mem_debt (Program.height_lt_iSup next a))
    exact ⟨paid, fun _ => lower⟩
  | @closes st x a stack fs =>
    obtain ⟨f, fs, rfl⟩ := List.exists_cons_of_ne_nil nested.focus
    exact ⟨.inl rfl, by rintro ⟨⟩⟩
  | takes busy => exact ⟨.inl rfl, fun empty => absurd empty busy⟩
  | @drained st s n next stack fs empty =>
    simp only [Config.debt, Focus.debt, Focus.later]
    obtain ⟨paid, lower⟩ := paid_of_replace (Program.lt_of_mem_debt (Program.height_lt_iSup next n))
    exact ⟨paid, fun _ => lower⟩
  | @resumes st st' t f after resumption stack fs top stirs =>
    have wakes : wakes? ⟨st, .trampoline t after, stack⟩ = some f := by
      simp [wakes?, agent, Agent.resumed?, top]
    have spared : st.engages f = true → among f = false := fun made => quiet f (by simp [event?, wakes, made])
    refine ⟨.inl ?_, by rintro ⟨⟩⟩
    simp only [Config.debt, Focus.debt, debts_opened, Activation.debts, charge_resumed stirs spared, zero_add,
      Focus.later]
  | suspends | finishes =>
    cases nested.stack with
    | frame goes rest =>
      obtain ⟨s, n, next, rfl, _⟩ := goes
      refine ⟨.inl ?_, by rintro ⟨⟩⟩
      simp [Config.debt, Focus.debt, Activation.debts]
  | returns | lands =>
    refine ⟨.inl ?_, by rintro ⟨⟩⟩
    simp [Config.debt, Focus.debt, Activation.debts, Focus.later]
  | @leaps st st' t f g h target value rest after resumption stack fs wakes stirs =>
    have spared : st.engages h = true → among h = false := fun made => quiet h (by simp [event?, wakes, made])
    refine ⟨.inl ?_, by rintro ⟨⟩⟩
    simp [Config.debt, Focus.debt, Activation.debts, Focus.later, charge_resumed stirs spared]
  | @cancels st st' t g h target a value rest after resumption stack fs stirs =>
    have spared : st.engages h = true → among h = false := by
      refine fun made => quiet h ?_
      cases a <;> simp [event?, wakes?, agent, Agent.resumed?, made]
    refine ⟨.inl ?_, by rintro ⟨⟩⟩
    simp [Config.debt, Focus.debt, Activation.debts, charge_resumed stirs spared]
  | @unwound st t g target a value after stack fs =>
    cases nested.stack with
    | cancel goes busy rest =>
      simp only [Config.debt, Activation.debts, Focus.debt, Program.debt_answer, charge_zero, zero_add]
      cases after with
      | code next =>
        obtain ⟨paid, lower⟩ := paid_of_replace (Program.lt_of_mem_debt (lt_add_one next.height))
        exact ⟨paid, fun _ => lower⟩
      | _ => exact ⟨.inl rfl, by rintro ⟨⟩⟩

/-- Code that goes on does so for a frame at work, unless it is the code below the drive. -/
theorem Nested.staying_ne_nil {c : Config V C} (nested : c.Nested d fs) (turns : c.Turns)
    (drives : ∀ s n next, c.focus ≠ .drain s n next) : c.staying fs ≠ [] := by
  obtain ⟨st, focus, stack⟩ := c
  cases focus with
  | drain s n next => exact absurd rfl (drives s n next)
  | trampoline | waiting | work | own | rest => exact turns.elim
  | code p =>
    have busy : fs ≠ [] := nested.focus
    cases p with
    | answer a =>
      cases stack with
      | nil => exact turns.elim
      | cons x stack =>
        cases x with
        | call => exact busy
        | opened | frame => exact turns.elim
        | cancel t doomed target value after =>
          cases doomed with
          | cons => exact turns.elim
          | nil =>
            cases after with
            | code next =>
              obtain ⟨f, fs, rfl⟩ := List.exists_cons_of_ne_nil busy
              cases nested.stack with
              | cancel goes => exact goes
            | trampoline | drain | waiting | work | own | rest => exact turns.elim
    | _ => exact busy

theorem Flows.staying_ne_nil {c c' : Config V C} (flows : Flows c fs c' fs') (nested : c.Nested d fs)
    (nested' : c'.Nested d fs') (turns : c.Turns) : c.staying fs ≠ [] := by
  obtain ⟨st, focus, stack⟩ := c
  cases focus with
  | drain s n next =>
    cases flows with
    | takes busy => exact absurd turns busy
    | drained => exact nested'.focus
  | _ => exact nested.staying_ne_nil turns (by simp)

/-- A frame that a step resumes changes as such frames do. -/
theorem Flows.stirs {c c' : Config V C} {h : FrameId} (flows : Flows c fs c' fs') (heirs : fs' = c.heirs fs)
    (wakes : c.wakes? = some h) : ∃ resumption, Stirs c.state h resumption c'.state := by
  rw [Config.heirs, wakes] at heirs
  have longer : fs' = h :: c.staying fs := heirs
  cases flows with
  | goes busy | opens busy | drives busy =>
    rw [staying_of_busy busy] at longer
    exact absurd longer.symm (List.cons_ne_self _ _)
  | calls | hands | closes | takes | drained | suspends | returns | finishes | lands | unwound =>
    exact absurd longer.symm (List.cons_ne_self _ _)
  | unwinds _ stirs | resumes _ stirs | leaps _ stirs | cancels stirs =>
    obtain ⟨rfl, _⟩ := List.cons.inj longer
    exact ⟨_, stirs⟩

end Config

end Tasking
