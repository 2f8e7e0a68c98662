import Mathlib.Tactic.IntervalCases
import Tasking.Proofs.Apart.Steps
import Tasking.Proofs.Halting.Wear

/-! # Unwinding

An unwind lets a task go on at a target further down its chain.  The frames that it skips are cancelled, each
once and from the top down, and nothing that they do, or have others do, changes which ones that are or where the
task goes on: both are settled when the unwind begins (`Unwind.Exact`).  A jump does the same for the frames
between the one that jumped and its target (`Crew.Run.cancels_exactly`).

What an unwind resumes has to be told apart from what the cancelled frames have the thread resume in turn.  So a
resumption is noted together with the number of activations that wait below it.
-/

namespace Tasking

variable {V C : Type}

/-! ## Frames above a target -/

namespace State

variable {st : State V C} {target : FrameId} {top : Option FrameId} {above below : List FrameId}

theorem chainOf_nodup (acyclic : Acyclic st.caller) (top : Option FrameId) : (st.chainOf top).Nodup := by
  cases top with
  | none => exact List.nodup_nil
  | some f => exact chainUpTo_nodup acyclic st.frames.size f

/-- A frame on a chain is not above itself. -/
theorem notMem_of_chainOf (acyclic : Acyclic st.caller) (chain : st.chainOf top = above ++ target :: below) :
    target ∉ above := by
  have nodup := chainOf_nodup acyclic top
  rw [chain] at nodup
  exact fun member => (List.nodup_append.1 nodup).2.2 target member target List.mem_cons_self rfl

theorem framesAbove_of_chain (acyclic : Acyclic st.caller) (chain : st.chainOf top = above ++ target :: below) :
    st.framesAbove top target = some above := by
  have apart : ∀ f ∈ above, decide (f ≠ target) = true := by
    intro f member
    exact decide_eq_true fun same => notMem_of_chainOf acyclic chain (same ▸ member)
  rw [framesAbove, chain, if_pos (by simp), List.takeWhile_append_of_pos apart,
    List.takeWhile_cons_of_neg (by simp), List.append_nil]

/-- As long as there are frames, a chain begins with its top. -/
theorem chain_eq_cons (st : State V C) {f g : FrameId} {frame : Frame V (Body V C)}
    (code : st.frames.get? g = some frame) : ∃ rest, st.chain f = f :: rest := by
  have bounds := (st.frames.isSome_get?_iff g).1 (by simp [code])
  obtain ⟨bound, size⟩ : ∃ bound, st.frames.size = bound + 1 := ⟨st.frames.size - 1, by omega⟩
  rw [chain, size, chainUpTo_succ]
  exact ⟨_, rfl⟩

/-- Let the chain of a task begin elsewhere. -/
def withTop (st : State V C) (t : TaskId) (top : Option FrameId) : State V C :=
  st.modifyTask t fun task => { task with top := top }

/-- The frames stay as they are. -/
theorem chainOf_withTop (st : State V C) (t : TaskId) (top begins : Option FrameId) :
    (st.withTop t top).chainOf begins = st.chainOf begins := by
  have upTo (bound : Nat) (f : FrameId) : (st.withTop t top).chainUpTo bound f = st.chainUpTo bound f := by
    induction bound generalizing f with
    | zero => rfl
    | succ bound inductionHypothesis =>
      rw [chainUpTo_succ, chainUpTo_succ, show (st.withTop t top).caller f = st.caller f from rfl]
      cases st.caller f with
      | none => rfl
      | some caller => exact congrArg (f :: ·) (inductionHypothesis caller)
  cases begins with
  | none => rfl
  | some f => exact upTo st.frames.size f

theorem framesAbove_withTop (st : State V C) (t : TaskId) (top begins : Option FrameId) (target : FrameId) :
    (st.withTop t top).framesAbove begins target = st.framesAbove begins target := by
  rw [framesAbove, framesAbove, chainOf_withTop]

theorem framesAbove_eq_none (missed : target ∉ st.chainOf top) : st.framesAbove top target = none := by
  rw [framesAbove, if_neg missed]

end State

/-! ## What waits for answers -/

/-- The task that an activation goes on with. -/
def Activation.task? (x : Activation V C) : Option TaskId := x.run?.map Prod.fst

/-- A thread with this focus turns to a task: it resumes the top of its chain, or unwinds it. -/
def Focus.TurnsTo (t : TaskId) : Focus V C → Prop
  | .trampoline u _ | .code (.unwind u _ _ _) => u = t
  | _ => False

namespace Config

variable {c c' : Config V C} {t : TaskId}

/-- What a step does to what waits for answers.  Only a thread that turns to a task, or that goes on with one, gets
activations of it. -/
inductive Stacks (c c' : Config V C) : Prop where
  | adds {extra : List (Activation V C)} (busy : ∀ answer, c.focus = .code (.answer answer) → c.stack = [])
      (stack : c'.stack = extra ++ c.stack)
      (turns : ∀ x ∈ extra, ∀ t, x.task? = some t → c.focus.TurnsTo t)
  | pops {answer : Answer V} {x : Activation V C} {extra rest : List (Activation V C)}
      (focus : c.focus = .code (.answer answer)) (stack : c.stack = x :: rest) (stack' : c'.stack = extra ++ rest)
      (same : ∀ y ∈ extra, ∀ t, y.task? = some t → x.task? = some t)

/-- An activation on top of which a payload may be open. -/
theorem task?_of_opened {opened : Option ExclusiveId} {x y : Activation V C}
    (member : y ∈ (opened.map Activation.opened).toList ++ [x]) (serves : y.task? = some t) :
    x.task? = some t := by
  rcases List.mem_append.1 member with inside | last
  · cases opened with
    | none => cases inside
    | some open' =>
      obtain rfl := List.mem_singleton.1 inside
      cases serves
  · exact List.mem_singleton.1 last ▸ serves

variable [Inhabited V]

open State

theorem stacks_of_does (does : Does c c') : Stacks c c' := by
  cases does with
  | serves | newFrame | newActor | registers =>
    exact @Stacks.adds _ _ _ _ [] (by simp) rfl (by simp)
  | @passes st focus next stack extra detours idle calls =>
    refine .adds (fun answer here => ?_) rfl fun x member u serves => ?_
    · exact absurd rfl ((detours.2 _ here).1 answer)
    · have call := calls x member
      cases x with
      | call => cases serves
      | _ => cases call
  | rests => exact @Stacks.adds _ _ _ _ [] (fun _ _ => rfl) rfl (by simp)
  | hands | closes | suspends | returns | finishes | lands | unwinds =>
    exact @Stacks.pops _ _ _ _ _ _ [] _ rfl rfl rfl (by simp)
  | @opens st x t inside next stack may =>
    refine @Stacks.adds _ _ _ _ [.opened x, .call _] (by simp) rfl fun y member u serves => ?_
    rcases List.mem_pair.1 member with rfl | rfl <;> cases serves
  | @begins st st₁ st₂ focus after t w stack detours busy =>
    exact @Stacks.adds _ _ _ _ [] (fun answer here => absurd here (busy _)) rfl (by simp)
  | @resumes st st' t f task after resumption stack =>
    refine @Stacks.adds _ _ _ _ (_ ++ [.frame t f after]) (by simp) (List.append_cons ..) fun x member u serves => ?_
    exact Option.some.inj (task?_of_opened member serves)
  | @leaps st st' t f g target value task rest after resumption stack =>
    refine @Stacks.pops _ _ _ _ _ _ (_ ++ [.cancel t rest target value _]) _ rfl rfl (List.append_cons ..)
      fun y member u serves => ?_
    exact task?_of_opened (x := .cancel t rest target value _) member serves
  | @cancels st st' t g target answer value rest after resumption stack =>
    refine @Stacks.pops _ _ _ _ _ _ (_ ++ [.cancel t rest target value after]) _ rfl rfl (List.append_cons ..)
      fun y member u serves => ?_
    exact task?_of_opened (x := .cancel t rest target value after) member serves

/-- An unwind has begun, or cancels the next frame, or is over. -/
theorem cancelNext_ok {st : State V C} {focus after : Focus V C} {stack : List (Activation V C)} {config : Config V C}
    {doomed : List FrameId} {target : FrameId} {value : V}
    (done : (⟨st, focus, stack⟩ : Config V C).cancelNext t doomed target value after = .ok config) :
    doomed = [] ∧ config = ⟨landAt st t target value, after, stack⟩ ∨
      ∃ f rest resumption st', doomed = f :: rest ∧ st.resume t f default (some .cancelled) = .ok (resumption, st') ∧
        config = ⟨st', .code resumption.program,
          (resumption.opened.map .opened).toList ++ [.cancel t rest target value after] ++ stack⟩ := by
  cases doomed with
  | nil => exact .inl ⟨rfl, (pure_ok.1 done).symm⟩
  | cons f rest =>
    obtain ⟨resumption, st', resumed, rfl⟩ := Crew.Sound.resumeFrame_ok
      (show (⟨st, focus, stack⟩ : Config V C).resumeFrame t f default (some .cancelled)
        (.cancel t rest target value after) = .ok config from done)
    exact .inr ⟨f, rest, resumption, st', rfl, resumed, by simp⟩

/-- Code unwinds a task by hand: the frames above the target are to be cancelled. -/
theorem unwind_ok {st : State V C} {focus after : Focus V C} {stack : List (Activation V C)} {config : Config V C}
    {target : FrameId} {value : V} (done : (⟨st, focus, stack⟩ : Config V C).unwind t target value after = .ok config) :
    ∃ task doomed, st.tasks.get? t = some task ∧ st.framesAbove task.top target = some doomed ∧
      (⟨st, focus, stack⟩ : Config V C).cancelNext t doomed target value after = .ok config := by
  simp only [unwind, bind_ok, task_ok, check_ok] at done
  obtain ⟨task, found, _, done⟩ := done
  split at done
  · next doomed walk => exact ⟨task, doomed, found, walk, done⟩
  · simp at done

theorem stacks_of_step (step : c.step = .ok c') : Stacks c c' := by
  by_cases byHand : ∃ t target value next, c.focus = .code (.unwind t target value next)
  · obtain ⟨st, focus, stack⟩ := c
    obtain ⟨t, target, value, next, rfl⟩ := byHand
    obtain ⟨task, doomed, _, _, done⟩ := unwind_ok
      (show (⟨st, _, stack⟩ : Config V C).unwind t target value (.code next) = .ok c' from step)
    obtain ⟨_, rfl⟩ | ⟨f, rest, resumption, st', _, _, rfl⟩ := cancelNext_ok done
    · exact @Stacks.adds _ _ _ _ [] (by simp) rfl (by simp)
    · refine .adds (by simp) rfl fun x member u serves => ?_
      exact Option.some.inj (task?_of_opened (x := .cancel t rest target value (.code next)) member serves)
  · refine stacks_of_does (does_of_step (fun t target value next here => ?_) step)
    exact byHand ⟨t, target, value, next, here⟩

/-- A step makes no task disappear. -/
theorem known_of_step (step : c.step = .ok c') (known : (c.state.tasks.get? t).isSome = true) :
    (c'.state.tasks.get? t).isSome = true := by
  cases affects_of_step step with
  | touches touches => exact touches.known known
  | begins ready touches => exact touches.known known
  | @ends u result subject ends =>
    by_cases same : t = u
    · obtain ⟨life, terminal, _⟩ := ends.terminal
      obtain ⟨task, found, _⟩ := Option.map_eq_some_iff.1 terminal
      simp [same, found]
    · simpa [ends.others same] using known

/-! ## What is resumed -/

/-- How many activations wait below the one that is put there for a frame that the next step resumes. -/
def height (c : Config V C) : Nat :=
  match c.focus, c.stack with
  | .code (.answer _), _ :: rest => rest.length
  | _, stack => stack.length

/-- What the next step of a thread resumes, if it resumes a frame, and how many activations wait below. -/
def entry? (c : Config V C) : Option (Nat × Resumed V) :=
  (c.agent.resumption? c.state).map fun resumed => (c.height, resumed)

/-- Frames are resumed for a task by a thread that turns to it, or goes on with it. -/
theorem turns_of_entry? {n : Nat} {resumed : Resumed V} (enters : c.entry? = some (n, resumed)) :
    c.focus.TurnsTo resumed.task ∨ ∃ answer x rest, c.focus = .code (.answer answer) ∧ c.stack = x :: rest ∧
      x.task? = some resumed.task := by
  obtain ⟨resumed', said, same⟩ := Option.map_eq_some_iff.1 enters
  obtain rfl : resumed' = resumed := congrArg Prod.snd same
  obtain ⟨st, focus, stack⟩ := c
  simp only [Config.agent, Agent.resumption?] at said
  split at said
  · next t after _ =>
    obtain ⟨task, _, said⟩ := Option.bind_eq_some_iff.1 said
    obtain ⟨f, _, rfl⟩ := Option.map_eq_some_iff.1 said
    exact .inl rfl
  · obtain ⟨f, _, _, rfl⟩ := Resumed.skipped_eq_some said
    exact .inl rfl
  · obtain rfl := Option.some.inj said
    exact .inr ⟨_, _, _, rfl, rfl, rfl⟩
  · obtain ⟨f, _, _, rfl⟩ := Resumed.skipped_eq_some said
    exact .inr ⟨_, _, _, rfl, rfl, rfl⟩
  · cases said

/-- A thread goes on among others, from one step to the next as long as it is as said, and resumes these frames.
The others may change the state as they like, but no task disappears; and when the thread waits, they may let it
wait no longer. -/
inductive Goes (within : Config V C → Prop) : Config V C → List (Nat × Resumed V) → Config V C → Prop where
  | rests {c : Config V C} : Goes within c [] c
  | acts {c c₁ c₂ : Config V C} {trace : List (Nat × Resumed V)} (earlier : Goes within c trace c₁)
      (inside : within c₁) (step : c₁.step = .ok c₂) : Goes within c (trace ++ c₁.entry?.toList) c₂
  | others {c c₁ : Config V C} {st : State V C} {trace : List (Nat × Resumed V)} (earlier : Goes within c trace c₁)
      (inside : within c₁) (keeps : ∀ t, (c₁.state.tasks.get? t).isSome = true → (st.tasks.get? t).isSome = true) :
      Goes within c trace { c₁ with state := st }
  | lapses {c : Config V C} {st : State V C} {condition : Until} {limit : Option Nat} {next : Program V C}
      {stack : List (Activation V C)} {trace : List (Nat × Resumed V)}
      (earlier : Goes within c trace ⟨st, .waiting condition limit next, stack⟩)
      (inside : within ⟨st, .waiting condition limit next, stack⟩) :
      Goes within c trace ⟨st, .code next, stack⟩

/-- A thread that has no others beside it goes on by its own steps. -/
def Leads : Config V C → Config V C → Prop := Relation.ReflTransGen fun c c' => c.step = .ok c'

end Config

/-! ## Unwinds -/

/-- The frames of those resumed that have so many activations below. -/
def resumedAt (n : Nat) (trace : List (Nat × Resumed V)) : List (Resumed V) :=
  (trace.filter fun entry => entry.1 = n).map Prod.snd

/-- An unwind of a task: the frames to be cancelled, where the task goes on and with what, what the thread does
then, and what waits below. -/
structure Unwind (V C : Type) where
  task : TaskId
  doomed : List FrameId
  target : FrameId
  value : V
  after : Focus V C
  below : List (Activation V C)

namespace Unwind

open State Config

variable {w : Unwind V C} {c c' : Config V C} {st st' : State V C} {n : Nat} {resumed : Resumed V}
  {trace : List (Nat × Resumed V)}

/-- What waits for the answer of a cancelled frame, while these are still to be cancelled. -/
def activation (w : Unwind V C) (rest : List FrameId) : Activation V C :=
  .cancel w.task rest w.target w.value w.after

/-- The unwind is not over. -/
def Inside (w : Unwind V C) (c : Config V C) : Prop := w.below.length < c.stack.length

/-- The task goes on at the target, with the value and without an error. -/
def Landed (w : Unwind V C) (st : State V C) : Prop :=
  ∃ task, st.tasks.get? w.task = some task ∧ task.top = some w.target ∧ task.value = w.value ∧ task.error = none

variable [Inhabited V]

/-- How far an unwind came.  It resumed some of the frames, in order and as cancelled ones, and nothing else; or it
resumed all of them, and is over. -/
inductive Reached (w : Unwind V C) (trace : List (Nat × Resumed V)) (c : Config V C) : Prop where
  | underway {inner : List (Activation V C)} {handled rest : List FrameId} (split : w.doomed = handled ++ rest)
      (stack : c.stack = inner ++ w.activation rest :: w.below)
      (own : resumedAt w.below.length trace = handled.map (.cancelled w.task))
  | returned (focus : c.focus = w.after) (stack : c.stack = w.below) (landed : w.Landed c.state)
      (own : resumedAt w.below.length trace = w.doomed.map (.cancelled w.task))

/-- In this state a frame of an unwind is resumed, comes to an answer, and so on with those that are left. -/
inductive Answers (w : Unwind V C) : State V C → List FrameId → State V C → Prop where
  | none {st : State V C} : Answers w st [] st
  | next {st st₁ st₂ st' : State V C} {f : FrameId} {rest : List FrameId} {resumption : Resumption V C}
      {answer : Answer V} (resumed : st.resume w.task f default (some .cancelled) = .ok (resumption, st₁))
      (answers : Leads ⟨st₁, .code resumption.program,
          (resumption.opened.map .opened).toList ++ [w.activation rest] ++ w.below⟩
        ⟨st₂, .code (.answer answer), w.activation rest :: w.below⟩)
      (later : Answers w st₂ rest st') : Answers w st (f :: rest) st'

/-- A thread is about to unwind a task, with this state to begin with.  Whatever the cancelled frames do and others
do meanwhile, it resumes exactly the frames to be cancelled, and then, if it goes on with the task, the target.  It
resumes no other frame of the task meanwhile, unless it is made to turn to the task.  And it comes to the end if
each of the frames comes to an answer. -/
structure Exact (w : Unwind V C) (st : State V C) (c : Config V C) : Prop where
  cancels : ∀ {c₁ trace c'}, c.step = .ok c₁ → Goes w.Inside c₁ trace c' → w.Reached (c.entry?.toList ++ trace) c'
  resumes : ∀ {c₁ trace c' next}, c.step = .ok c₁ → Goes w.Inside c₁ trace c' → c'.stack = w.below →
    w.after = .trampoline w.task next →
    c'.entry? = some (w.below.length, ⟨w.task, w.target, w.value, none⟩)
  alone : ∀ {c₁ trace c'}, c.step = .ok c₁ →
    Goes (fun c => w.Inside c ∧ ¬ c.focus.TurnsTo w.task) c₁ trace c' →
    ∀ n resumed, (n, resumed) ∈ c.entry?.toList ++ trace → resumed.task = w.task → n = w.below.length
  returns : ∀ {st'}, w.Answers st w.doomed st' →
    Leads c ⟨landAt st' w.task w.target w.value, w.after, w.below⟩

/-! ### Steps of an unwind -/

omit [Inhabited V] in
theorem resumedAt_append (n : Nat) (trace trace' : List (Nat × Resumed V)) :
    resumedAt n (trace ++ trace') = resumedAt n trace ++ resumedAt n trace' := by
  simp [resumedAt]

omit [Inhabited V] in
theorem resumedAt_of_ne (other : ∀ resumed ∈ trace, resumed.1 ≠ n) : resumedAt n trace = [] := by
  simpa [resumedAt, List.filter_eq_nil_iff] using fun a b member => other (a, b) member

/-- The entry for a frame that is cancelled next. -/
def entry (w : Unwind V C) (rest : List FrameId) : Option (Nat × Resumed V) :=
  rest.head?.map fun f => (w.below.length, .cancelled w.task f)

theorem reached_of_cancelNext {focus : Focus V C} {handled rest : List FrameId}
    (known : (st.tasks.get? w.task).isSome = true) (split : w.doomed = handled ++ rest)
    (own : resumedAt w.below.length trace = handled.map (.cancelled w.task))
    (done : (⟨st, focus, w.below⟩ : Config V C).cancelNext w.task rest w.target w.value w.after = .ok c') :
    w.Reached (trace ++ (w.entry rest).toList) c' := by
  obtain ⟨rfl, rfl⟩ | ⟨f, rest', resumption, st', rfl, _, rfl⟩ := cancelNext_ok done
  · obtain ⟨task, found⟩ := Option.isSome_iff_exists.1 known
    refine .returned rfl rfl ⟨_, (becomes_modifyTask found _).self, rfl, rfl, rfl⟩ ?_
    simpa [entry, split] using own
  · refine @Reached.underway _ _ _ w _ _ (resumption.opened.map .opened).toList (handled ++ [f]) rest' ?_ ?_ ?_
    · simp [split]
    · simp [activation]
    · rw [resumedAt_append, own]
      simp [entry, resumedAt]

/-- When a cancelled frame has answered, the next one is cancelled. -/
theorem step_of_answer {answer : Answer V} {rest : List FrameId} (focus : c.focus = .code (.answer answer))
    (stack : c.stack = w.activation rest :: w.below) :
    c.entry? = w.entry rest ∧ c.step =
      (⟨c.state, c.focus, w.below⟩ : Config V C).cancelNext w.task rest w.target w.value w.after := by
  obtain ⟨st, focus', stack'⟩ := c
  subst focus stack
  refine ⟨?_, rfl⟩
  cases rest with
  | nil => cases answer <;> rfl
  | cons f rest => cases answer <;> rfl

omit [Inhabited V] in
/-- As long as other activations are on top, or their code has not answered, the unwind does nothing. -/
theorem height_of_waits {inner : List (Activation V C)} {rest : List FrameId}
    (stack : c.stack = inner ++ w.activation rest :: w.below)
    (busy : (∃ answer, c.focus = .code (.answer answer)) → inner ≠ []) : w.below.length < c.height := by
  have long : c.stack.length = inner.length + w.below.length + 1 := by
    rw [stack, List.length_append, List.length_cons]
    omega
  unfold height
  split
  · next answer _ behind focus stack' =>
    have more := List.length_pos_of_ne_nil (busy ⟨answer, focus⟩)
    rw [stack', List.length_cons] at long
    omega
  · omega

/-- A step of what a cancelled frame does, or of whatever that has the thread do. -/
theorem Reached.step_inner {inner : List (Activation V C)} {handled rest : List FrameId}
    (split : w.doomed = handled ++ rest) (stack : c.stack = inner ++ w.activation rest :: w.below)
    (own : resumedAt w.below.length trace = handled.map (.cancelled w.task))
    (busy : (∃ answer, c.focus = .code (.answer answer)) → inner ≠ []) (step : c.step = .ok c') :
    w.Reached (trace ++ c.entry?.toList) c' := by
  have apart : resumedAt w.below.length (trace ++ c.entry?.toList) = handled.map (.cancelled w.task) := by
    rw [resumedAt_append, own, resumedAt_of_ne fun entry member => ?_, List.append_nil]
    obtain ⟨resumed, _, rfl⟩ := Option.map_eq_some_iff.1 (Option.mem_toList.1 member)
    exact (height_of_waits stack busy).ne'
  cases stacks_of_step step with
  | @adds extra _ stack' _ =>
    exact @Reached.underway _ _ _ w _ _ (extra ++ inner) handled rest split (by rw [stack', stack]; simp) apart
  | @pops answer x extra behind focus stack₁ stack' _ =>
    obtain ⟨y, inner', rfl⟩ := List.exists_cons_of_ne_nil (busy ⟨answer, focus⟩)
    obtain ⟨rfl, rfl⟩ := List.cons_eq_cons.1 (stack₁.symm.trans stack)
    exact @Reached.underway _ _ _ w _ _ (extra ++ inner') handled rest split (by rw [stack']; simp) apart

theorem Reached.step (reached : w.Reached trace c) (known : (c.state.tasks.get? w.task).isSome = true)
    (inside : w.Inside c) (step : c.step = .ok c') : w.Reached (trace ++ c.entry?.toList) c' := by
  cases reached with
  | returned focus stack => exact absurd inside (by simp [Inside, stack])
  | @underway inner handled rest split stack own =>
    by_cases here : (∃ answer, c.focus = .code (.answer answer)) ∧ inner = []
    · obtain ⟨⟨answer, focus⟩, rfl⟩ := here
      obtain ⟨enters, steps⟩ := step_of_answer focus stack
      rw [enters]
      exact reached_of_cancelNext known split own (steps.symm.trans step)
    · exact .step_inner split stack own (fun answers none => here ⟨answers, none⟩) step

/-- However the thread goes on, the unwind is somewhere between its beginning and its end. -/
theorem Reached.goes (begun : w.Reached trace c) (known : (c.state.tasks.get? w.task).isSome = true)
    {later : List (Nat × Resumed V)} (goes : Goes w.Inside c later c') :
    w.Reached (trace ++ later) c' ∧ (c'.state.tasks.get? w.task).isSome = true := by
  induction goes with
  | rests => exact ⟨by rwa [List.append_nil], known⟩
  | acts _ inside step inductionHypothesis =>
    obtain ⟨reached, known⟩ := inductionHypothesis
    rw [← List.append_assoc]
    exact ⟨reached.step known inside step, known_of_step step known⟩
  | others _ inside keeps inductionHypothesis =>
    obtain ⟨reached, known⟩ := inductionHypothesis
    refine ⟨?_, keeps _ known⟩
    cases reached with
    | underway split stack own => exact .underway split stack own
    | returned focus stack => exact absurd inside (by simp [Inside, stack])
  | lapses _ inside inductionHypothesis =>
    obtain ⟨reached, known⟩ := inductionHypothesis
    refine ⟨?_, known⟩
    cases reached with
    | underway split stack own => exact .underway split stack own
    | returned focus stack => exact absurd inside (Nat.not_lt.2 (congrArg List.length stack).le)

/-! ### Nothing else for the task -/

/-- What waits above the unwind does not go on with its task. -/
def Bare (w : Unwind V C) (c : Config V C) : Prop :=
  c.stack = w.below ∨ ∃ inner rest, c.stack = inner ++ w.activation rest :: w.below ∧
    ∀ x ∈ inner, x.task? ≠ some w.task

theorem bare_of_cancelNext {focus : Focus V C} {rest : List FrameId}
    (done : (⟨st, focus, w.below⟩ : Config V C).cancelNext w.task rest w.target w.value w.after = .ok c') :
    w.Bare c' := by
  obtain ⟨_, rfl⟩ | ⟨f, rest', resumption, st', _, _, rfl⟩ := cancelNext_ok done
  · exact .inl rfl
  · refine .inr ⟨(resumption.opened.map .opened).toList, rest', by simp [activation], fun x member => ?_⟩
    obtain ⟨open', _, rfl⟩ := Option.map_eq_some_iff.1 (Option.mem_toList.1 member)
    simp [Activation.task?, Activation.run?]

/-- A thread that does not turn to the task resumes frames of it for the unwind only. -/
theorem Bare.step (bare : w.Bare c) (inside : w.Inside c) (away : ¬ c.focus.TurnsTo w.task) (step : c.step = .ok c') :
    w.Bare c' ∧ ∀ n resumed, c.entry? = some (n, resumed) → resumed.task = w.task → n = w.below.length := by
  obtain returned | ⟨inner, rest, stack, others⟩ := bare
  · exact absurd inside (by simp [Inside, returned])
  by_cases here : (∃ answer, c.focus = .code (.answer answer)) ∧ inner = []
  · obtain ⟨⟨answer, focus⟩, rfl⟩ := here
    obtain ⟨enters, steps⟩ := step_of_answer focus stack
    constructor
    · exact bare_of_cancelNext (steps.symm.trans step)
    · intro n resumed said _
      obtain ⟨f, _, same⟩ := Option.map_eq_some_iff.1 (enters.symm.trans said)
      exact (congrArg Prod.fst same).symm
  · have busy : (∃ answer, c.focus = .code (.answer answer)) → inner ≠ [] := fun answers none => here ⟨answers, none⟩
    have top {x : Activation V C} {behind : List (Activation V C)} {answer : Answer V}
        (focus : c.focus = .code (.answer answer)) (first : c.stack = x :: behind) :
        ∃ inner', inner = x :: inner' ∧ behind = inner' ++ w.activation rest :: w.below := by
      obtain ⟨y, inner', rfl⟩ := List.exists_cons_of_ne_nil (busy ⟨answer, focus⟩)
      obtain ⟨rfl, rfl⟩ := List.cons_eq_cons.1 (first.symm.trans stack)
      exact ⟨inner', rfl, rfl⟩
    constructor
    · cases stacks_of_step step with
      | @adds extra _ stack' turns =>
        refine .inr ⟨extra ++ inner, rest, by rw [stack', stack]; simp, fun x member serves => ?_⟩
        rcases List.mem_append.1 member with new | old
        · exact away (turns x new _ serves)
        · exact others x old serves
      | @pops answer x extra behind focus stack₁ stack' same =>
        obtain ⟨inner', rfl, rfl⟩ := top focus stack₁
        refine .inr ⟨extra ++ inner', rest, by rw [stack']; simp, fun y member serves => ?_⟩
        rcases List.mem_append.1 member with new | old
        · exact others x List.mem_cons_self (same y new _ serves)
        · exact others y (List.mem_cons_of_mem x old) serves
    · intro n resumed said mine
      obtain turns | ⟨answer, x, behind, focus, first, serves⟩ := turns_of_entry? said
      · exact absurd (mine ▸ turns) away
      · obtain ⟨inner', rfl, _⟩ := top focus first
        exact absurd (mine ▸ serves) (others x List.mem_cons_self)

theorem Bare.goes (bare : w.Bare c) {later : List (Nat × Resumed V)}
    (goes : Goes (fun c => w.Inside c ∧ ¬ c.focus.TurnsTo w.task) c later c') :
    w.Bare c' ∧ ∀ n resumed, (n, resumed) ∈ later → resumed.task = w.task → n = w.below.length := by
  induction goes with
  | rests => exact ⟨bare, by simp⟩
  | acts _ inside step inductionHypothesis =>
    obtain ⟨bare, earlier⟩ := inductionHypothesis
    obtain ⟨bare', now⟩ := bare.step inside.1 inside.2 step
    refine ⟨bare', fun n resumed member => ?_⟩
    rcases List.mem_append.1 member with before | last
    · exact earlier n resumed before
    · exact now n resumed (Option.mem_toList.1 last)
  | others _ _ _ inductionHypothesis =>
    obtain ⟨bare, earlier⟩ := inductionHypothesis
    exact ⟨bare, earlier⟩
  | lapses _ _ inductionHypothesis =>
    obtain ⟨bare, earlier⟩ := inductionHypothesis
    exact ⟨bare, earlier⟩

/-! ### To the end -/

/-- If every cancelled frame comes to an answer, the unwind comes to its end. -/
theorem leads_of_answers {focus : Focus V C} {rest : List FrameId} {c₁ : Config V C} (answers : w.Answers st rest st')
    (step : c₁.step = (⟨st, focus, w.below⟩ : Config V C).cancelNext w.task rest w.target w.value w.after) :
    Leads c₁ ⟨landAt st' w.task w.target w.value, w.after, w.below⟩ := by
  induction answers generalizing c₁ focus with
  | none => exact .single step
  | @next st st₁ st₂ st' f rest resumption answer resumed answers _ inductionHypothesis =>
    refine .head (b := ⟨st₁, .code resumption.program,
      (resumption.opened.map .opened).toList ++ [w.activation rest] ++ w.below⟩) ?_ (answers.trans ?_)
    · rw [step]
      simp only [cancelNext, resumeFrame, resumed, Except.bind, bind]
      cases resumption.opened <;> rfl
    · exact inductionHypothesis (step_of_answer rfl rfl).2

/-- A task that has landed is resumed at the target. -/
theorem Landed.entry? {next : Focus V C} (landed : w.Landed c.state) (focus : c.focus = .trampoline w.task next)
    (stack : c.stack = w.below) : c.entry? = some (w.below.length, ⟨w.task, w.target, w.value, none⟩) := by
  obtain ⟨task, found, top, value, error⟩ := landed
  obtain ⟨st, focus', stack'⟩ := c
  subst focus stack
  simp [Config.entry?, Config.agent, Agent.resumption?, Config.height, found, top, value, error]

/-- An unwind that begins with this step is exact. -/
theorem exact_of_cancelNext {focus : Focus V C} (known : (c.state.tasks.get? w.task).isSome = true)
    (known' : (st.tasks.get? w.task).isSome = true) (enters : c.entry? = w.entry w.doomed)
    (step : c.step = (⟨st, focus, w.below⟩ : Config V C).cancelNext w.task w.doomed w.target w.value w.after) :
    w.Exact st c := by
  have cancels : ∀ {c₁ trace c'}, c.step = .ok c₁ → Goes w.Inside c₁ trace c' →
      w.Reached (c.entry?.toList ++ trace) c' := by
    intro c₁ trace c' first goes
    have begun : w.Reached ([] ++ (w.entry w.doomed).toList) c₁ :=
      reached_of_cancelNext known' (List.nil_append _).symm rfl (step.symm.trans first)
    rw [enters]
    exact (begun.goes (known_of_step first known) goes).1
  refine ⟨cancels, fun {c₁ trace c' next} first goes behind after => ?_, fun {c₁ trace c'} first goes n resumed member
    mine => ?_, fun answers => leads_of_answers answers step⟩
  · cases cancels first goes with
    | returned focus stack landed => exact landed.entry? (focus.trans after) stack
    | underway split stack =>
      have long := congrArg List.length (behind.symm.trans stack)
      simp only [List.length_append, List.length_cons] at long
      omega
  · rcases List.mem_append.1 member with now | later
    · rw [enters] at now
      obtain ⟨f, _, same⟩ := Option.map_eq_some_iff.1 (Option.mem_toList.1 now)
      exact (congrArg Prod.fst same).symm
    · exact ((bare_of_cancelNext (step.symm.trans first)).goes goes).2 n resumed later mine

end Unwind

namespace Config

variable {st : State V C} {stack : List (Activation V C)} {focus after : Focus V C} {t : TaskId} {f target : FrameId}
  {task : Task V} {value : V} {doomed : List FrameId}

open State Unwind

variable [Inhabited V]

/-- The first frame to be skipped is the top, unless that is the target. -/
theorem skipped_of_framesAbove {top : Option FrameId} (walk : st.framesAbove top target = some doomed)
    (apart : target ∉ doomed) : Resumed.skipped t target top = doomed.head?.map (Resumed.cancelled (V := V) t) := by
  rw [← (framesAbove_some walk).1]
  cases doomed with
  | nil => simp [Resumed.skipped]
  | cons g rest =>
    have other : g ≠ target := fun same => apart (same ▸ List.mem_cons_self)
    simp [Resumed.skipped, other]

theorem unwind_eq (found : st.tasks.get? t = some task) (life : task.life = .init ∨ task.life = .running)
    (walk : st.framesAbove task.top target = some doomed) :
    (⟨st, focus, stack⟩ : Config V C).unwind t target value after =
      (⟨st, focus, stack⟩ : Config V C).cancelNext t doomed target value after := by
  have fits : ¬ (task.life ≠ .init ∧ task.life ≠ .running) := fun neither => life.elim neither.1 neither.2
  have looks : st.task t = .ok task := task_ok.2 found
  simp only [unwind, looks, bind, Except.bind, if_neg fits, walk]

/-- An unwind of a task whose target is not on its chain ends before it begins. -/
theorem unwind_offChain (found : st.tasks.get? t = some task) (life : task.life = .init ∨ task.life = .running)
    (walk : st.framesAbove task.top target = none) :
    (⟨st, focus, stack⟩ : Config V C).unwind t target value after = .error ⟨.targetOffChain, st⟩ := by
  have fits : ¬ (task.life ≠ .init ∧ task.life ≠ .running) := fun neither => life.elim neither.1 neither.2
  have looks : st.task t = .ok task := task_ok.2 found
  simp only [unwind, looks, bind, Except.bind, if_neg fits, walk]
  rfl

/-- Code that unwinds a task by hand, if the target is on the chain. -/
theorem exact_of_unwind {next : Program V C} (found : st.tasks.get? t = some task)
    (life : task.life = .init ∨ task.life = .running) (walk : st.framesAbove task.top target = some doomed)
    (apart : target ∉ doomed) :
    Unwind.Exact ⟨t, doomed, target, value, .code next, stack⟩ st
      ⟨st, .code (.unwind t target value next), stack⟩ := by
  have known : (st.tasks.get? t).isSome = true := by simp [found]
  refine exact_of_cancelNext known known ?_ (unwind_eq found life walk)
  have first : (Resumed.skipped t target (st.top t)).map (stack.length, ·) =
      (doomed.head?.map (Resumed.cancelled (V := V) t)).map (stack.length, ·) := by
    rw [top_of_get? found, skipped_of_framesAbove walk apart]
  exact first.trans (Option.map_map ..)

omit [Inhabited V] in
/-- Where the chain of a task begins when a frame jumps. -/
theorem topAfterJump_eq {frame : Frame V (Body V C)} (found : st.tasks.get? t = some task) (top : task.top = some f)
    (code : st.frames.get? f = some frame) :
    Agent.topAfterJump st t f target = if f = target then some f else frame.caller := by
  have link : st.caller f = frame.caller := by simp [State.caller, code]
  rw [Agent.topAfterJump, top_of_get? found, top, link]
  by_cases same : f = target
  · simp [same]
  · simp [same]

theorem jump_eq {frame : Frame V (Body V C)} (found : st.tasks.get? t = some task) (life : task.life = .running)
    (code : st.frames.get? f = some frame)
    (walk : st.framesAbove (Agent.topAfterJump st t f target) target = some doomed) (apart : target ∉ doomed) :
    (⟨st, focus, stack⟩ : Config V C).jump t f target value after =
      (⟨st.withTop t (Agent.topAfterJump st t f target), focus, stack⟩ : Config V C).cancelNext t doomed target value
        (.trampoline t after) := by
  have looks : st.task t = .ok task := task_ok.2 found
  have reads : st.frame f = .ok frame := frame_ok.2 code
  have same : (if task.top = some f ∧ f ≠ target then frame.caller else task.top) =
      Agent.topAfterJump st t f target := by
    simp [Agent.topAfterJump, top_of_get? found, State.caller, code]
  simp only [jump, looks, reads, bind, Except.bind, same]
  split
  · next here =>
    obtain ⟨first, _⟩ := framesAbove_some walk
    cases doomed with
    | nil => rfl
    | cons g rest => exact absurd (Option.some.inj (first.trans here)) fun same => apart (same ▸ List.mem_cons_self)
  · have moved := (becomes_modifyTask found fun task =>
      { task with top := Agent.topAfterJump st t f target }).self
    exact unwind_eq moved (.inr life) ((framesAbove_withTop ..).trans walk)

/-- A jump to a frame that is not on the chain ends before any frame is cancelled. -/
theorem jump_offChain {frame : Frame V (Body V C)} (found : st.tasks.get? t = some task)
    (life : task.life = .running) (top : task.top = some f) (code : st.frames.get? f = some frame)
    (other : target ≠ f) (missed : target ∉ st.chainOf frame.caller) :
    (⟨st, focus, stack⟩ : Config V C).jump t f target value after =
      .error ⟨.targetOffChain, st.withTop t frame.caller⟩ := by
  have looks : st.task t = .ok task := task_ok.2 found
  have reads : st.frame f = .ok frame := frame_ok.2 code
  have same : (if task.top = some f ∧ f ≠ target then frame.caller else task.top) = frame.caller :=
    if_pos ⟨top, other.symm⟩
  have away : frame.caller ≠ some target := by
    intro next
    obtain ⟨rest, begins⟩ := @chain_eq_cons _ _ st target f frame code
    exact missed (by rw [next, show st.chainOf (some target) = target :: rest from begins]; exact List.mem_cons_self)
  simp only [jump, looks, reads, bind, Except.bind, same, if_neg away]
  have moved := (becomes_modifyTask found fun task => { task with top := frame.caller }).self
  exact unwind_offChain moved (.inr life) ((framesAbove_withTop ..).trans (framesAbove_eq_none missed))

/-- A frame of a running task jumps to a target on its chain. -/
theorem exact_of_jump {frame : Frame V (Body V C)} (found : st.tasks.get? t = some task)
    (life : task.life = .running) (code : st.frames.get? f = some frame)
    (walk : st.framesAbove (Agent.topAfterJump st t f target) target = some doomed) (apart : target ∉ doomed) :
    Unwind.Exact ⟨t, doomed, target, value, .trampoline t after, stack⟩
      (st.withTop t (Agent.topAfterJump st t f target))
      ⟨st, .code (.answer (.jump target value)), .frame t f after :: stack⟩ := by
  have known : (st.tasks.get? t).isSome = true := by simp [found]
  refine exact_of_cancelNext known (by simp [State.withTop, get?_modifyTask, found]) ?_
    (jump_eq found life code walk apart)
  have first : (Resumed.skipped t target (Agent.topAfterJump st t f target)).map (stack.length, ·) =
      (doomed.head?.map (Resumed.cancelled (V := V) t)).map (stack.length, ·) := by
    rw [skipped_of_framesAbove walk apart]
  exact first.trans (Option.map_map ..)

end Config

namespace Crew

variable [Inhabited V] {allowed : Crew V C → Agent V C → Prop}

open State

/-- No frame is ever below itself. -/
theorem Run.acyclic (run : Run V C allowed) : ∀ i ≤ run.length, Acyclic (run.crew i).state.caller := by
  intro i
  induction i with
  | zero =>
    intro _ f cycle
    obtain ⟨parallelism, starts⟩ := run.starts
    obtain ⟨g, link, _⟩ := Relation.TransGen.head'_iff.1 cycle
    simp [starts, initial, State.initial, State.caller] at link
  | succ i inductionHypothesis =>
    intro bound
    have acyclic := inductionHypothesis (by omega)
    have step := run.steps i bound
    revert acyclic step
    generalize run.crew i = c
    generalize run.crew (i + 1) = c'
    generalize run.resumed i = label
    intro acyclic step
    cases step with
    | act _ step =>
      have wears : State.Wears (fun _ => false) _ _ := Config.wears_of_step (fun _ _ => rfl) step
      exact wears.acyclic acyclic
    | join | lapse | switch => exact acyclic

/-- Whatever code did before, an unwind cancels exactly the frames above its target, and a jump exactly those
between the frame that jumped and its target, which are none if a frame jumps to itself or to its caller.  If the
target is not on the chain, that is found out before any frame is cancelled. -/
theorem Run.cancels_exactly (run : Run V C allowed) {i : Nat} (bound : i ≤ run.length) (a : Agent V C) :
    let st := (run.crew i).state
    (∀ t target value next task, a.focus = .code (.unwind t target value next) → st.tasks.get? t = some task →
      task.life = .init ∨ task.life = .running →
      (∀ above below, st.chainOf task.top = above ++ target :: below → (above ++ target :: below).Nodup ∧
        Unwind.Exact ⟨t, above, target, value, .code next, a.stack⟩ st (a.config st)) ∧
      (target ∉ st.chainOf task.top → (a.config st).step = .error ⟨.targetOffChain, st⟩)) ∧
    ∀ t f target value after stack task frame, a.focus = .code (.answer (.jump target value)) →
      a.stack = .frame t f after :: stack → st.tasks.get? t = some task → task.life = .running →
      task.top = some f → st.frames.get? f = some frame →
      (target = f →
        Unwind.Exact ⟨t, [], target, value, .trampoline t after, stack⟩ (st.withTop t (some f)) (a.config st)) ∧
      (∀ between below, st.chainOf frame.caller = between ++ target :: below →
        (f :: between ++ target :: below).Nodup ∧
        Unwind.Exact ⟨t, between, target, value, .trampoline t after, stack⟩ (st.withTop t frame.caller)
          (a.config st)) ∧
      (target ≠ f → target ∉ st.chainOf frame.caller →
        (a.config st).step = .error ⟨.targetOffChain, st.withTop t frame.caller⟩) := by
  intro st
  have acyclic : Acyclic st.caller := run.acyclic i bound
  obtain ⟨focus', stack'⟩ := a
  constructor
  · rintro t target value next task rfl found life
    refine ⟨fun above below chain => ⟨chain ▸ chainOf_nodup acyclic task.top, ?_⟩, fun missed => ?_⟩
    · exact Config.exact_of_unwind found life (framesAbove_of_chain acyclic chain) (notMem_of_chainOf acyclic chain)
    · exact Config.unwind_offChain found life (framesAbove_eq_none missed)
  · rintro t f target value after stack task frame rfl rfl found life top code
    have begins : Agent.topAfterJump st t f target = _ := Config.topAfterJump_eq found top code
    refine ⟨fun same => ?_, fun between below chain => ?_, fun other missed => ?_⟩
    · subst same
      obtain ⟨rest, whole⟩ := @chain_eq_cons _ _ st target target frame code
      have walk : st.framesAbove (some target) target = some [] := framesAbove_of_chain acyclic whole
      rw [if_pos rfl] at begins
      rw [← begins] at walk ⊢
      exact Config.exact_of_jump found life code walk List.not_mem_nil
    · -- The frame that jumps is above its caller, so it is not the target.
      have outside : f ∉ st.chainOf frame.caller := by
        intro again
        cases above : frame.caller with
        | none => simp [above, chainOf] at again
        | some caller =>
          rw [above] at again
          exact acyclic.not_caller_reaches (by simp [State.caller, code, above]) (reaches_of_mem_chainUpTo again)
      have other : f ≠ target := by
        rintro rfl
        exact outside (by simp [chain])
      have walk := framesAbove_of_chain acyclic chain
      rw [if_neg other] at begins
      have nodup : (f :: st.chainOf frame.caller).Nodup :=
        List.nodup_cons.2 ⟨outside, chainOf_nodup acyclic frame.caller⟩
      refine ⟨by rwa [chain] at nodup, ?_⟩
      rw [← begins] at walk ⊢
      exact Config.exact_of_jump found life code walk (notMem_of_chainOf acyclic chain)
    · exact Config.jump_offChain found life top code other missed

/-! ### A task that is started while it is unwound

The host unwinds a task that it did not start.  The frame that is cancelled starts the task and drives the
scheduler, so that the task is at its end when the unwind comes to its own. -/

def revival : Program Unit Empty :=
  .ask .newRegistry fun g =>
  .ask (.newScheduler .manual g) fun
    | .error _ => .answer .suspended
    | .ok s =>
      .newFrame "target" (fun _ _ _ => .answer (.done ())) fun target =>
      .newFrame "entry" (fun context _ error => match error with
        | none => .answer (.done ())
        | some _ => .ask (.start context.task) fun _ => .drive s fun _ => .answer (.done ())) fun entry =>
      .ask (.attach entry (some target)) fun _ =>
      .ask (.spawn s entry) fun
        | .error _ => .answer .suspended
        | .ok t => .unwind t target () (.answer (.done ()))

/-- The host after so many steps. -/
def revivalHost (n : Nat) : Config Unit Empty := (Config.start (.initial 1) revival).after n

theorem revival_ok : ∀ n < 16, (revivalHost n).step.isOk = true := by decide +kernel

def revivalRun : Run Unit Empty fun _ _ => True := .ofHost 1 revival 16 revival_ok fun _ _ => trivial

theorem revival_cancels : 7 ≤ revivalRun.length ∧
    (revivalRun.crew 7).agents = [⟨.code (.unwind ⟨1⟩ ⟨1⟩ () (.answer (.done ()))), []⟩] ∧
    Unwind.Exact ⟨⟨1⟩, [⟨2⟩], ⟨1⟩, (), .code (.answer (.done ())), []⟩ (revivalRun.crew 7).state
      ⟨(revivalRun.crew 7).state, .code (.unwind ⟨1⟩ ⟨1⟩ () (.answer (.done ()))), []⟩ := by
  have reached : 7 ≤ revivalRun.length := by decide
  obtain ⟨task, found⟩ : ∃ task, (revivalRun.crew 7).state.tasks.get? ⟨1⟩ = some task :=
    Option.isSome_iff_exists.1 (by decide +kernel)
  have shape : (some task).map (fun task => (task.life, task.top)) = some (.init, some ⟨2⟩) := by
    rw [← found]
    decide +kernel
  obtain ⟨new, top⟩ := Prod.mk.inj (Option.some.inj shape)
  have exact := (revivalRun.cancels_exactly reached
    ⟨.code (.unwind ⟨1⟩ ⟨1⟩ () (.answer (.done ()))), []⟩).1 _ _ _ _ _ rfl found (.inl new)
  refine ⟨reached, rfl, (exact.1 [⟨2⟩] [] ?_).2⟩
  rw [top]
  decide +kernel

end Crew

end Tasking
