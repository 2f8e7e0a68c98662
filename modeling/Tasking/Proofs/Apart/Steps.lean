import Tasking.Proofs.Apart.Serving
import Tasking.Proofs.Doings

/-! # Steps that are alike

Threads of two runs are alike (`Likeness.Inside`) if they are about to do like things, and if what waits for
their answers does.  Each such step resumes like frames with like values and errors (`Inside.resumption`), leads
to states that are alike, and leaves the threads alike (`Inside.step`).

The relation covers the part of a thread that belongs to one run of a task, down to what follows the run, or all
of a thread that runs the program of a host, as long as it does not take up a task.
-/

namespace Tasking

variable {V C : Type}

/-- A frame that is resumed, and with what. -/
structure Resumed (V : Type) where
  task : TaskId
  frame : FrameId
  value : V
  error : Option (Error V)

/-- A frame that an unwind skips. -/
def Resumed.cancelled [Inhabited V] (t : TaskId) (f : FrameId) : Resumed V := ⟨t, f, default, some .cancelled⟩

/-- The first frame that an unwind from a top to a target skips. -/
def Resumed.skipped [Inhabited V] (t : TaskId) (target : FrameId) (top : Option FrameId) : Option (Resumed V) :=
  (top.filter (· ≠ target)).map (.cancelled t)

theorem Resumed.skipped_eq_some [Inhabited V] {t : TaskId} {target : FrameId} {top : Option FrameId} {r : Resumed V}
    (said : Resumed.skipped t target top = some r) : ∃ f, top = some f ∧ f ≠ target ∧ r = .cancelled t f := by
  cases top with
  | none => cases said
  | some f =>
    rw [skipped, Option.filter_some] at said
    split at said
    · next other => exact ⟨f, rfl, by simpa using other, (Option.some.inj said).symm⟩
    · cases said

/-- What the next step of a thread resumes a frame with, if it resumes one. -/
def Agent.resumption? [Inhabited V] (a : Agent V C) (st : State V C) : Option (Resumed V) :=
  match a.focus, a.stack with
  | .trampoline t _, _ =>
    (st.tasks.get? t).bind fun task => task.top.map fun f => ⟨t, f, task.value, task.error⟩
  | .code (.unwind t target _ _), _ => Resumed.skipped t target (st.top t)
  | .code (.answer _), .cancel t (f :: _) _ _ _ :: _ => some (.cancelled t f)
  | .code (.answer (.jump target _)), .frame t f _ :: _ =>
    Resumed.skipped t target (Agent.topAfterJump st t f target)
  | _, _ => none

open State in
/-- An unwind cancels the top first. -/
theorem Config.unwind_cancels [Inhabited V] {st : State V C} {focus after : Focus V C} {stack : List (Activation V C)}
    {config : Config V C} {t : TaskId} {f target : FrameId} {value : V} (top : st.top t = some f) (other : f ≠ target)
    (done : (⟨st, focus, stack⟩ : Config V C).unwind t target value after = .ok config) :
    ∃ resumption, st.resume t f default (some .cancelled) = .ok (resumption, config.state) ∧
      config.focus = .code resumption.program := by
  simp only [unwind, bind_ok, task_ok, check_ok] at done
  obtain ⟨task, found, _, done⟩ := done
  split at done
  · next doomed walk =>
    obtain ⟨first, _⟩ := framesAbove_some walk
    rw [← top_of_get? found, top] at first
    cases doomed with
    | nil => exact absurd (Option.some.inj first).symm other
    | cons g rest =>
      obtain rfl : g = f := Option.some.inj first
      obtain ⟨resumption, st', resumed, rfl⟩ := Crew.Sound.resumeFrame_ok
        (show (⟨st, focus, stack⟩ : Config V C).resumeFrame t g default (some .cancelled)
          (.cancel t rest target value after) = .ok config from done)
      exact ⟨resumption, resumed, rfl⟩
  · simp at done

/-- A step resumes what it is said to resume. -/
theorem Agent.resumed_of_step [Inhabited V] {a : Agent V C} {st : State V C} {config : Config V C} {r : Resumed V}
    (said : a.resumption? st = some r) (step : (a.config st).step = .ok config) :
    ∃ st₀ resumption, State.resume st₀ r.task r.frame r.value r.error = .ok (resumption, config.state) ∧
      config.focus = .code resumption.program := by
  by_cases byHand : ∃ t target value next, a.focus = .code (.unwind t target value next)
  · obtain ⟨focus, stack⟩ := a
    obtain ⟨t, target, value, next, rfl⟩ := byHand
    obtain ⟨f, top, other, rfl⟩ := Resumed.skipped_eq_some said
    exact ⟨st, Config.unwind_cancels top other step⟩
  · obtain ⟨focus, stack⟩ := a
    have tame : ∀ t target value next, focus ≠ .code (.unwind t target value next) :=
      fun t target value next here => byHand ⟨t, target, value, next, here⟩
    have does : Config.Does ⟨st, focus, stack⟩ config := Config.does_of_step tame step
    cases does with
    | resumes found top resumed =>
      simp only [resumption?, found, top, Option.bind_some, Option.map_some, Option.some.injEq] at said
      subst said
      exact ⟨_, _, resumed, rfl⟩
    | leaps found top path resumed =>
      obtain ⟨f, top', other, rfl⟩ := Resumed.skipped_eq_some said
      obtain rfl := Option.some.inj (top.symm.trans top')
      exact ⟨_, _, resumed, rfl⟩
    | cancels resumed =>
      cases said
      exact ⟨_, _, resumed, rfl⟩
    | lands found top =>
      obtain ⟨f, top', other, rfl⟩ := Resumed.skipped_eq_some said
      exact absurd (Option.some.inj (top'.symm.trans top)) other
    | passes detours =>
      cases focus with
      | trampoline t after => cases detours.1
      | code program =>
        cases program with
        | answer answer => exact absurd rfl ((detours.2 _ rfl).1 answer)
        | unwind t target value next => exact absurd rfl (tame t target value next)
        | _ => cases said
      | _ => cases said
    | begins detours busy =>
      cases focus with
      | trampoline t after => cases detours.1
      | code program => exact absurd rfl (busy program)
      | _ => cases said
    | rests | hands | closes => cases ‹Answer V› <;> cases said
    | returns ends | finishes ends =>
      cases ends with
      | inl done =>
        obtain ⟨value, rfl⟩ := done
        cases said
      | inr failed =>
        obtain ⟨error, rfl⟩ := failed
        cases said
    | serves | newFrame | newActor | registers | opens | unwinds | suspends => cases said

/-- A frame that the thread is about to make a caller exists. -/
def Agent.KnowsCaller (a : Agent V C) (st : State V C) : Prop :=
  match a.focus with
  | .code (.ask request _) => st.KnowsCaller request
  | _ => True

namespace Likeness

open State

variable [Inhabited V]

structure Resumes (L : Likeness V C) (resumed resumed' : Resumed V) : Prop where
  task : L.id resumed.task resumed'.task
  frame : L.id resumed.frame resumed'.frame
  value : L.value resumed.value resumed'.value
  error : Option.Rel L.Errors resumed.error resumed'.error

section Threads

variable (L : Likeness V C) (drives ends : Bool)
  (Rest : Focus V C → List (Activation V C) → Focus V C → List (Activation V C) → Prop)

mutual

/-- What waits for answers is alike.  `ends` says whether a program of a host may be at the bottom, and `Rest`
what may follow the run of a task. -/
inductive Waits : List (Activation V C) → List (Activation V C) → Prop where
  | nil (host : ends = true) : Waits [] []
  | call {next next' : Answer V → Program V C} {stack stack' : List (Activation V C)}
      (alike : ∀ a a', L.Answers a a' → L.Programs drives (next a) (next' a')) (rest : Waits stack stack') :
      Waits (.call next :: stack) (.call next' :: stack')
  | opened {x x' : ExclusiveId} {stack stack' : List (Activation V C)} (payload : L.id x x')
      (rest : Waits stack stack') : Waits (.opened x :: stack) (.opened x' :: stack')
  | cancel {t t' : TaskId} {doomed doomed' : List FrameId} {target target' : FrameId} {v v' : V}
      {after after' : Focus V C} {stack stack' : List (Activation V C)} (task : L.id t t')
      (skipped : List.Forall₂ L.id doomed doomed') (targets : L.id target target') (value : L.value v v')
      (rest : Inside after stack after' stack') :
      Waits (.cancel t doomed target v after :: stack) (.cancel t' doomed' target' v' after' :: stack')
  | frame {t t' : TaskId} {f f' : FrameId} {after after' : Focus V C} {stack stack' : List (Activation V C)}
      (task : L.id t t') (frame : L.id f f') (rest : Rest after stack after' stack') :
      Waits (.frame t f after :: stack) (.frame t' f' after' :: stack')

/-- Threads are about to do like things. -/
inductive Inside : Focus V C → List (Activation V C) → Focus V C → List (Activation V C) → Prop where
  | code {p p' : Program V C} {stack stack' : List (Activation V C)} (alike : L.Programs drives p p')
      (rest : Waits stack stack') : Inside (.code p) stack (.code p') stack'
  | trampoline {t t' : TaskId} {after after' : Focus V C} {stack stack' : List (Activation V C)}
      (task : L.id t t') (rest : Rest after stack after' stack') :
      Inside (.trampoline t after) stack (.trampoline t' after') stack'
  | drain {s s' : SchedulerId} {n n' : Nat} {next next' : Nat → Program V C}
      {stack stack' : List (Activation V C)} (may : drives = true) (scheduler : L.id s s')
      (alike : ∀ n n', L.Programs drives (next n) (next' n')) (rest : Waits stack stack') :
      Inside (.drain s n next) stack (.drain s' n' next') stack'
  | waiting {t t' : TaskId} {p p' : Program V C} {stack stack' : List (Activation V C)} (task : L.id t t')
      (alike : L.Programs drives p p') (rest : Waits stack stack') :
      Inside (.waiting (.outcome t) none p) stack (.waiting (.outcome t') none p') stack'

end

/-- Where a step leads in both runs. -/
structure Goes (st st' : State V C) (config config' : Config V C) : Prop where
  moves : L.Moves st st' config.state config'.state
  thread : Inside L drives ends Rest config.focus config.stack config'.focus config'.stack ∨
    Rest config.focus config.stack config'.focus config'.stack

end Threads

variable {L : Likeness V C} {drives ends : Bool}
  {Rest : Focus V C → List (Activation V C) → Focus V C → List (Activation V C) → Prop}
  {st st' : State V C} {focus focus' after after' : Focus V C} {stack stack' : List (Activation V C)}
  {config config' : Config V C} {t t' : TaskId} {f f' target target' : FrameId} {v v' : V}
  {home home' : SchedulerId}

theorem Goes.behind {st₁ st₁' : State V C} (goes : L.Goes drives ends Rest st₁ st₁' config config')
    (moves : L.Moves st st' st₁ st₁') : L.Goes drives ends Rest st st' config config' :=
  ⟨moves.trans goes.moves, goes.thread⟩

/-! ## What is resumed -/

theorem Resumes.skipped {top top' : Option FrameId} (task : L.id t t') (targets : L.id target target')
    (tops : Option.Rel L.id top top') :
    Option.Rel L.Resumes (Resumed.skipped t target top) (Resumed.skipped t' target' top') := by
  cases tops with
  | none => exact .none
  | some same =>
    simp only [Resumed.skipped, Option.filter_some, ne_eq, L.same_iff same targets]
    split
    · exact .some ⟨task, same, L.default, .some .cancelled⟩
    · exact .none

theorem Mirrors.top (mirrors : L.Mirrors st st') (task : L.id t t') : Option.Rel L.id (st.top t) (st'.top t') := by
  exact related_bind (mirrors.tasks t t' task) fun _ _ alike => alike.top

theorem Mirrors.topAfterJump (mirrors : L.Mirrors st st') (task : L.id t t') (frame : L.id f f')
    (targets : L.id target target') :
    Option.Rel L.id (Agent.topAfterJump st t f target) (Agent.topAfterJump st' t' f' target') := by
  have tops := mirrors.top task
  unfold Agent.topAfterJump
  simp only [some_iff tops frame, ne_eq, L.same_iff frame targets]
  split
  · exact mirrors.caller frame
  · exact tops

/-- Threads that are alike resume like frames with like values and errors. -/
theorem Inside.resumption (inside : L.Inside drives ends Rest focus stack focus' stack')
    (mirrors : L.Mirrors st st') :
    Option.Rel L.Resumes (Agent.resumption? ⟨focus, stack⟩ st) (Agent.resumption? ⟨focus', stack'⟩ st') := by
  cases inside with
  | trampoline task _ =>
    apply related_bind (mirrors.tasks _ _ task)
    intro _ _ alike
    exact related_map alike.top fun _ _ frame => ⟨task, frame, alike.value, alike.error⟩
  | drain | waiting => exact .none
  | code alike rest =>
    cases alike with
    | unwind task target _ _ => exact Resumes.skipped task target (mirrors.top task)
    | answer answers =>
      cases rest with
      | nil | call | opened => cases answers <;> exact .none
      | cancel task skipped targets value rest =>
        cases skipped with
        | nil => cases answers <;> exact .none
        | cons first _ => cases answers <;> exact .some ⟨task, first, L.default, .some .cancelled⟩
      | frame task frame rest =>
        cases answers with
        | done | throw | suspended => exact .none
        | jump targets value => exact Resumes.skipped task targets (mirrors.topAfterJump task frame targets)
    | ask | newFrame | newActor | register | callNative | drive | within | await => exact .none

/-! ## Steps -/

theorem Waits.resumed {resumption resumption' : Resumption V C} (rest : L.Waits drives ends Rest stack stack')
    (alike : L.Resumptions resumption resumption') :
    L.Inside drives ends Rest (.code resumption.program) ((resumption.opened.map .opened).toList ++ stack)
      (.code resumption'.program) ((resumption'.opened.map .opened).toList ++ stack') := by
  apply Inside.code alike.program.mono
  have opened := alike.opened
  revert opened
  generalize resumption.opened = x, resumption'.opened = x'
  intro opened
  cases opened with
  | none => exact rest
  | some payload => exact .opened payload rest

namespace Mirrors

variable (mirrors : L.Mirrors st st')
include mirrors

section Enrolled

variable (enrolled : st.Enrolled home) (enrolled' : st'.Enrolled home')
include enrolled enrolled'

theorem resumeFrame {activation activation' : Activation V C} {error error' : Option (Error V)}
    (task : L.id t t') (frame : L.id f f') (value : L.value v v') (errors : Option.Rel L.Errors error error')
    (rest : L.Waits drives ends Rest (activation :: stack) (activation' :: stack'))
    (done : (⟨st, focus, stack⟩ : Config V C).resumeFrame t f v error activation = .ok config)
    (done' : (⟨st', focus', stack'⟩ : Config V C).resumeFrame t' f' v' error' activation' = .ok config') :
    L.Goes drives ends Rest st st' config config' := by
  obtain ⟨resumption, st₁, resumed, rfl⟩ := Crew.Sound.resumeFrame_ok done
  obtain ⟨resumption', st₁', resumed', rfl⟩ := Crew.Sound.resumeFrame_ok done'
  obtain ⟨alike, moves⟩ := mirrors.resume enrolled enrolled' task frame value errors resumed resumed'
  exact ⟨moves, .inl (rest.resumed alike)⟩

omit enrolled enrolled' in
theorem landAt (task : L.id t t') (targets : L.id target target') (value : L.value v v') :
    L.Moves st st' (Config.landAt st t target v) (Config.landAt st' t' target' v') :=
  mirrors.modifyTask task fun _ _ alike => { alike with top := .some targets, value := value, error := .none }

theorem cancelNext {doomed doomed' : List FrameId} (task : L.id t t') (skipped : List.Forall₂ L.id doomed doomed')
    (targets : L.id target target') (value : L.value v v')
    (rest : L.Inside drives ends Rest after stack after' stack')
    (done : (⟨st, focus, stack⟩ : Config V C).cancelNext t doomed target v after = .ok config)
    (done' : (⟨st', focus', stack'⟩ : Config V C).cancelNext t' doomed' target' v' after' = .ok config') :
    L.Goes drives ends Rest st st' config config' := by
  cases skipped with
  | nil =>
    obtain rfl := pure_ok.1 done
    obtain rfl := pure_ok.1 done'
    exact ⟨mirrors.landAt task targets value, .inl rest⟩
  | cons first later =>
    simp only [Config.cancelNext] at done done'
    exact mirrors.resumeFrame enrolled enrolled' task first L.default (.some .cancelled)
      (.cancel task later targets value rest) done done'

theorem unwind (task : L.id t t') (targets : L.id target target') (value : L.value v v')
    (rest : L.Inside drives ends Rest after stack after' stack')
    (done : (⟨st, focus, stack⟩ : Config V C).unwind t target v after = .ok config)
    (done' : (⟨st', focus', stack'⟩ : Config V C).unwind t' target' v' after' = .ok config') :
    L.Goes drives ends Rest st st' config config' := by
  simp only [Config.unwind, bind_ok, task_ok, check_ok] at done done'
  obtain ⟨a, found, _, done⟩ := done
  obtain ⟨a', found', _, done'⟩ := done'
  have tops := (mirrors.tasks.get task found found').top
  cases above : st.framesAbove a.top target with
  | none => simp [above] at done
  | some doomed =>
    cases above' : st'.framesAbove a'.top target' with
    | none => simp [above'] at done'
    | some doomed' =>
      rw [above] at done
      rw [above'] at done'
      exact mirrors.cancelNext enrolled enrolled' task (mirrors.framesAbove tops targets above above') targets value
        rest done done'

theorem resumeTop (task : L.id t t') (rest : Rest after stack after' stack')
    (done : (⟨st, focus, stack⟩ : Config V C).resumeTop t after = .ok config)
    (done' : (⟨st', focus', stack'⟩ : Config V C).resumeTop t' after' = .ok config') :
    L.Goes drives ends Rest st st' config config' := by
  simp only [Config.resumeTop, bind_ok, task_ok] at done done'
  obtain ⟨a, found, done⟩ := done
  obtain ⟨a', found', done'⟩ := done'
  have alike := mirrors.tasks.get task found found'
  have tops := alike.top
  cases top : a.top with
  | none => simp [top] at done
  | some f =>
    obtain ⟨f', top', frame⟩ := exists_of_related tops top
    simp only [top] at done
    simp only [top'] at done'
    have used := mirrors.modifyTask task (f := fun task => { task with value := Inhabited.default, error := none })
      (g := fun task => { task with value := Inhabited.default, error := none })
      fun _ _ alike => { alike with value := L.default, error := .none }
    refine Goes.behind ?_ used
    exact used.mirrors.resumeFrame (enrolled.remains (.modifyTask_aside st t fun _ => ⟨rfl, rfl, fun h => h⟩))
      (enrolled'.remains (.modifyTask_aside st' t' fun _ => ⟨rfl, rfl, fun h => h⟩)) task frame alike.value
      alike.error (.frame task frame rest) done done'

omit enrolled enrolled' in
theorem finishFrame {result result' : Except (Error V) V} (task : L.id t t') (frame : L.id f f')
    (results : Replies L.Errors L.value result result') (rest : Rest after stack after' stack')
    (done : (⟨st, focus, stack⟩ : Config V C).finishFrame t f result after = .ok config)
    (done' : (⟨st', focus', stack'⟩ : Config V C).finishFrame t' f' result' after' = .ok config') :
    L.Goes drives ends Rest st st' config config' := by
  simp only [Config.finishFrame, bind_ok, task_ok, check_ok, frame_ok] at done done'
  obtain ⟨a, found, _, b, ended, done⟩ := done
  obtain ⟨a', found', _, b', ended', done'⟩ := done'
  have callers := (mirrors.frames.get frame ended ended').caller
  cases above : b.caller with
  | none =>
    simp only [above, Config.finishRun, Config.tryState, Config.mapState, bind_ok, pure_ok] at done
    simp only [none_of_related callers above, Config.finishRun, Config.tryState, Config.mapState, bind_ok,
      pure_ok] at done'
    obtain ⟨_, ⟨_, finished, rfl⟩, rfl⟩ := done
    obtain ⟨_, ⟨_, finished', rfl⟩, rfl⟩ := done'
    have cleared := mirrors.modifyTask task (f := fun task => { task with top := none })
      (g := fun task => { task with top := none }) fun _ _ alike => { alike with top := .none }
    have stopped := cleared.trans (cleared.mirrors.endRun task)
    exact ⟨stopped.trans (stopped.mirrors.finish task results finished finished'), .inr rest⟩
  | some caller =>
    obtain ⟨caller', above', same⟩ := exists_of_related callers above
    simp only [above] at done
    simp only [above'] at done'
    obtain rfl := pure_ok.1 done
    obtain rfl := pure_ok.1 done'
    refine ⟨mirrors.modifyTask task fun _ _ alike => ?_, .inl (.trampoline task rest)⟩
    cases results with
    | ok value => exact { alike with top := .some same, value := value }
    | error error => exact { alike with top := .some same, error := .some error }

theorem jump (task : L.id t t') (frame : L.id f f') (targets : L.id target target') (value : L.value v v')
    (rest : Rest after stack after' stack')
    (done : (⟨st, focus, stack⟩ : Config V C).jump t f target v after = .ok config)
    (done' : (⟨st', focus', stack'⟩ : Config V C).jump t' f' target' v' after' = .ok config') :
    L.Goes drives ends Rest st st' config config' := by
  simp only [Config.jump, bind_ok, task_ok, frame_ok] at done done'
  obtain ⟨a, found, b, left, done⟩ := done
  obtain ⟨a', found', b', left', done'⟩ := done'
  have tops : Option.Rel L.id (if a.top = some f ∧ f ≠ target then b.caller else a.top)
      (if a'.top = some f' ∧ f' ≠ target' then b'.caller else a'.top) := by
    have jumps := mirrors.topAfterJump task frame targets
    simpa [Agent.topAfterJump, State.top, State.caller, found, found', left, left'] using jumps
  revert done done' tops
  generalize (if a.top = some f ∧ f ≠ target then b.caller else a.top) = top,
    (if a'.top = some f' ∧ f' ≠ target' then b'.caller else a'.top) = top'
  intro done done' tops
  have moved := mirrors.modifyTask task (f := fun task => { task with top := top })
    (g := fun task => { task with top := top' }) fun _ _ alike => { alike with top := tops }
  simp only [← some_iff tops targets] at done'
  split at done
  · next landed =>
    rw [if_pos landed] at done'
    obtain rfl := pure_ok.1 done
    obtain rfl := pure_ok.1 done'
    exact ⟨moved.trans (moved.mirrors.landAt task targets value), .inl (.trampoline task rest)⟩
  · next away =>
    rw [if_neg away] at done'
    refine Goes.behind ?_ moved
    exact moved.mirrors.unwind (enrolled.remains (.modifyTask_aside st t fun _ => ⟨rfl, rfl, fun h => h⟩))
      (enrolled'.remains (.modifyTask_aside st' t' fun _ => ⟨rfl, rfl, fun h => h⟩)) task targets value
      (.trampoline task rest) done done'

theorem takeAnswer {answer answer' : Answer V} (task : L.id t t') (frame : L.id f f')
    (answers : L.Answers answer answer') (rest : Rest after stack after' stack')
    (done : (⟨st, focus, stack⟩ : Config V C).takeAnswer t f answer after = .ok config)
    (done' : (⟨st', focus', stack'⟩ : Config V C).takeAnswer t' f' answer' after' = .ok config') :
    L.Goes drives ends Rest st st' config config' := by
  cases answers with
  | done value => exact mirrors.finishFrame task frame (.ok value) rest done done'
  | throw error => exact mirrors.finishFrame task frame (.error error) rest done done'
  | suspended =>
    simp only [Config.takeAnswer, Config.suspendRun, Config.tryState, bind_ok, pure_ok] at done done'
    obtain ⟨_, ⟨_, parked, rfl⟩, rfl⟩ := done
    obtain ⟨_, ⟨_, parked', rfl⟩, rfl⟩ := done'
    have stopped := mirrors.endRun task
    exact ⟨stopped.trans (stopped.mirrors.park task parked parked'), .inr rest⟩
  | jump targets value => exact mirrors.jump enrolled enrolled' task frame targets value rest done done'

theorem deliver {answer answer' : Answer V} (answers : L.Answers answer answer')
    (rest : L.Waits drives ends Rest stack stack')
    (done : (⟨st, .code (.answer answer), stack⟩ : Config V C).deliver answer = .ok config)
    (done' : (⟨st', .code (.answer answer'), stack'⟩ : Config V C).deliver answer' = .ok config') :
    L.Goes drives ends Rest st st' config config' := by
  cases rest with
  | nil host =>
    obtain rfl := pure_ok.1 done
    obtain rfl := pure_ok.1 done'
    exact ⟨mirrors.moves, .inl (.code (.answer answers) (.nil host))⟩
  | call alike rest =>
    obtain rfl := pure_ok.1 done
    obtain rfl := pure_ok.1 done'
    exact ⟨mirrors.moves, .inl (.code (alike _ _ answers) rest)⟩
  | opened payload rest =>
    obtain rfl := pure_ok.1 done
    obtain rfl := pure_ok.1 done'
    exact ⟨mirrors.closePayload payload, .inl (.code (.answer answers) rest)⟩
  | cancel task skipped targets value rest =>
    exact mirrors.cancelNext enrolled enrolled' task skipped targets value rest done done'
  | frame task frame rest => exact mirrors.takeAnswer enrolled enrolled' task frame answers rest done done'

theorem stepCode {p p' : Program V C} (rooted' : st'.Rooted) (alike : L.Programs drives p p')
    (rest : L.Waits drives ends Rest stack stack') (known : Agent.KnowsCaller ⟨.code p, stack⟩ st)
    (done : (⟨st, .code p, stack⟩ : Config V C).stepCode p = .ok config)
    (done' : (⟨st', .code p', stack'⟩ : Config V C).stepCode p' = .ok config')
    (fresh : L.Fresh st config.state) : L.Goes drives ends Rest st st' config config' := by
  cases alike with
  | answer answers => exact mirrors.deliver enrolled enrolled' answers rest done done'
  | ask request next =>
    simp only [Config.stepCode, bind_ok, pure_ok] at done done'
    obtain ⟨_, served, rfl⟩ := done
    obtain ⟨_, served', rfl⟩ := done'
    obtain ⟨replies, moves⟩ := mirrors.serve enrolled enrolled' rooted' request known served served' fresh
    exact ⟨moves, .inl (.code (next _ _ replies) rest)⟩
  | newFrame alike next =>
    obtain rfl := pure_ok.1 done
    obtain rfl := pure_ok.1 done'
    have mine := fresh.next .frame (by simp [State.size])
    obtain ⟨named, moves⟩ := mirrors.newFrame _ mine (.host alike)
    exact ⟨moves, .inl (.code (next _ _ named) rest)⟩
  | newActor first alike next =>
    obtain rfl := pure_ok.1 done
    obtain rfl := pure_ok.1 done'
    obtain ⟨named, moves⟩ := mirrors.newActor first alike fresh
    exact ⟨moves, .inl (.code (next _ _ named) rest)⟩
  | register registry own alike next =>
    simp only [Config.stepCode, bind_ok, pure_ok] at done done'
    obtain ⟨_, served, rfl⟩ := done
    obtain ⟨_, served', rfl⟩ := done'
    obtain ⟨same, moves⟩ := mirrors.register registry own alike served served'
    exact ⟨moves, .inl (.code (same ▸ next _) rest)⟩
  | callNative registry context arguments next =>
    simp only [Config.stepCode, bind_ok] at done done'
    obtain ⟨_, found, done⟩ := done
    obtain ⟨_, found', done'⟩ := done'
    have natives := Registries.native (mirrors.registries.get registry (find_ok.1 found) (find_ok.1 found')) ‹_›
    revert natives done done'
    generalize Registry.native _ _ = y, Registry.native _ _ = y'
    intro done done' natives
    cases natives with
    | error same =>
      obtain rfl := pure_ok.1 done
      obtain rfl := pure_ok.1 done'
      exact ⟨mirrors.moves, .inl (.code (next _ _ (.error same)) rest)⟩
    | ok alike =>
      obtain rfl := pure_ok.1 done
      obtain rfl := pure_ok.1 done'
      refine ⟨mirrors.moves, .inl (.code (alike _ _ _ _ context arguments).mono (.call ?_ rest))⟩
      exact fun _ _ answers => next _ _ (.ok answers)
  | unwind task target value next =>
    exact mirrors.unwind enrolled enrolled' task target value (.code next rest) done done'
  | drive scheduler next =>
    obtain rfl := pure_ok.1 done
    obtain rfl := pure_ok.1 done'
    exact ⟨mirrors.moves, .inl (.drain rfl scheduler next rest)⟩
  | within payload task alike next =>
    simp only [Config.stepCode, bind_ok] at done done'
    obtain ⟨may, opens, done⟩ := done
    obtain ⟨may', opens', done'⟩ := done'
    obtain rfl := mirrors.mayOpen payload task opens opens'
    cases may with
    | true =>
      obtain rfl := pure_ok.1 done
      obtain rfl := pure_ok.1 done'
      exact ⟨mirrors.openPayload payload,
        .inl (.code alike (.opened payload (.call (fun _ _ answers => next _ _ (.some answers)) rest)))⟩
    | false =>
      obtain rfl := pure_ok.1 done
      obtain rfl := pure_ok.1 done'
      exact ⟨mirrors.moves, .inl (.code (next _ _ .none) rest)⟩
  | await task next =>
    obtain rfl := pure_ok.1 done
    obtain rfl := pure_ok.1 done'
    exact ⟨mirrors.moves, .inl (.waiting task next rest)⟩

end Enrolled

theorem holds (task : L.id t t') : Config.holds st (.outcome t) = Config.holds st' (.outcome t') := by
  exact related_any (mirrors.tasks t t' task) fun _ _ alike => isSome_of_related alike.outcome

end Mirrors

/-- Threads that are alike make steps that are alike, as long as they take up no task. -/
theorem Inside.step (inside : L.Inside drives ends Rest focus stack focus' stack') (mirrors : L.Mirrors st st')
    (enrolled : st.Enrolled home) (enrolled' : st'.Enrolled home') (rooted' : st'.Rooted)
    (busy : ∀ s n next, focus ≠ .drain s n next) (known : Agent.KnowsCaller ⟨focus, stack⟩ st)
    (done : (⟨st, focus, stack⟩ : Config V C).step = .ok config)
    (done' : (⟨st', focus', stack'⟩ : Config V C).step = .ok config') (fresh : L.Fresh st config.state) :
    L.Goes drives ends Rest st st' config config' := by
  cases inside with
  | code alike rest => exact mirrors.stepCode enrolled enrolled' rooted' alike rest known done done' fresh
  | trampoline task rest => exact mirrors.resumeTop enrolled enrolled' task rest done done'
  | drain => exact absurd rfl (busy _ _ _)
  | waiting task alike rest =>
    simp only [Config.step, Config.keepWaiting, ← mirrors.holds task] at done done'
    split at done
    · next over' =>
      rw [if_pos over'] at done'
      obtain rfl := pure_ok.1 done
      obtain rfl := pure_ok.1 done'
      exact ⟨mirrors.moves, .inl (.code alike rest)⟩
    · next open' =>
      rw [if_neg open'] at done'
      obtain rfl := pure_ok.1 done
      obtain rfl := pure_ok.1 done'
      exact ⟨mirrors.moves, .inl (.waiting task alike rest)⟩

end Likeness

end Tasking
