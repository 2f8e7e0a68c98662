import Mathlib.Data.Prod.Lex
import Tasking.Proofs.Halting.Flow

/-! # What the runtime does of its own

When no code begins or goes on that somebody wrote, the runtime is left with frames that pass on results, guards
and joins, and with tasks that begin or end.  This comes to an end: frames wear out, tasks finish once
(`State.unfinished`), and in between a thread only climbs down the chain of one task (`Config.climb`).
-/

namespace Tasking

variable {V C : Type}

/-- Tables with the same numbers in use have the same size. -/
theorem Table.size_le {kind : Kind} {α β : Type} {table : Table kind α} {table' : Table kind β}
    (same : ∀ i, (table.get? i).isSome = true → (table'.get? i).isSome = true) : table.size ≤ table'.size := by
  by_contra more
  have last := same ⟨table.size⟩ ((table.isSome_get?_iff _).2 (by simp; omega))
  have := (table'.isSome_get?_iff _).1 last
  simp only at this
  omega

namespace State

variable {st st' st'' : State V C} {f g : FrameId} {t u : TaskId} {task task' : Task V}

/-! ## Frames below a frame -/

open Classical in
/-- How many frames there are from a frame down to its root. -/
noncomputable def below (st : State V C) (f : FrameId) : Nat :=
  ((Finset.range st.frames.size).filter fun n => Reaches st.caller f ⟨n + 1⟩).card

theorem below_le (st : State V C) (f : FrameId) : st.below f ≤ st.frames.size := by
  classical
  exact (Finset.card_filter_le _ _).trans_eq (Finset.card_range _)

theorem below_congr (callers : st'.caller = st.caller) (size : st'.frames.size = st.frames.size) :
    st'.below = st.below := by
  funext f
  rw [below, below, callers, size]

theorem below_of_frames (same : st'.frames = st.frames) : st'.below = st.below :=
  below_congr (caller_of_frames same) (by rw [same])

/-- There are fewer frames below the caller of a frame. -/
theorem below_lt (acyclic : Acyclic st.caller) (link : st.caller f = some g) : st.below g < st.below f := by
  classical
  have used := (st.frames.isSome_get?_iff f).1 (exists_of_caller link)
  have same : (⟨f.number - 1 + 1⟩ : FrameId) = f := by rw [Nat.sub_add_cancel used.1]
  refine Finset.card_lt_card ⟨fun n member => ?_, fun all => ?_⟩
  · rw [Finset.mem_filter] at member ⊢
    exact ⟨member.1, .head link member.2⟩
  · have first : f.number - 1 ∈ (Finset.range st.frames.size).filter fun n => Reaches st.caller f ⟨n + 1⟩ := by
      rw [Finset.mem_filter, Finset.mem_range, same]
      exact ⟨by omega, .refl⟩
    have member := (Finset.mem_filter.1 (all first)).2
    rw [same] at member
    exact acyclic.not_caller_reaches link member

/-! ## Unfinished tasks -/

/-- No task comes into being, and none comes back from its end. -/
structure Ages (st st' : State V C) : Prop where
  known : ∀ u, (st'.tasks.get? u).isSome = (st.tasks.get? u).isSome
  ended : ∀ {u life}, st.life u = some life → life.isTerminal = true → st'.life u = some life

open Classical in
/-- The places in the table of the tasks that have not finished. -/
noncomputable def openPlaces (st : State V C) : Finset Nat :=
  (Finset.range st.tasks.size).filter fun n =>
    ∀ life, st.life ⟨n + 1⟩ = some life → life.isTerminal = false

/-- How many tasks have not finished. -/
noncomputable def unfinished (st : State V C) : Nat := st.openPlaces.card

namespace Ages

theorem size (ages : Ages st st') : st'.tasks.size = st.tasks.size :=
  Nat.le_antisymm (Table.size_le fun u known => (ages.known u).symm.trans known)
    (Table.size_le fun u known => (ages.known u).trans known)

theorem openPlaces_subset (ages : Ages st st') : st'.openPlaces ⊆ st.openPlaces := by
  classical
  intro n member
  rw [openPlaces, Finset.mem_filter, ages.size] at member
  rw [openPlaces, Finset.mem_filter]
  refine ⟨member.1, fun life was => ?_⟩
  by_contra ended
  have ended : life.isTerminal = true := by simpa using ended
  simp [member.2 life (ages.ended was ended)] at ended

theorem unfinished_le (ages : Ages st st') : st'.unfinished ≤ st.unfinished :=
  Finset.card_le_card ages.openPlaces_subset

/-- A task has finished. -/
theorem unfinished_lt (ages : Ages st st') (live : st.life t = some .running)
    (ended : ∃ life, st'.life t = some life ∧ life.isTerminal = true) : st'.unfinished < st.unfinished := by
  classical
  obtain ⟨life, now, ended⟩ := ended
  have known : (st.tasks.get? t).isSome = true := by
    rw [State.life] at live
    cases found : st.tasks.get? t <;> simp_all
  have used := (st.tasks.isSome_get?_iff t).1 known
  have same : (⟨t.number - 1 + 1⟩ : TaskId) = t := by rw [Nat.sub_add_cancel used.1]
  refine Finset.card_lt_card ⟨ages.openPlaces_subset, fun all => ?_⟩
  have first : t.number - 1 ∈ st.openPlaces := by
    rw [openPlaces, Finset.mem_filter, Finset.mem_range, same]
    refine ⟨by omega, fun life was => ?_⟩
    rw [live] at was
    exact Option.some.inj was ▸ rfl
  have still := (Finset.mem_filter.1 (all first)).2 life (same.symm ▸ now)
  simp [still] at ended

end Ages

/-! ### Steps that ask for nothing -/

/-- The same tasks are there. -/
def SameTasks (st st' : State V C) : Prop := ∀ u, (st'.tasks.get? u).isSome = (st.tasks.get? u).isSome

namespace SameTasks

@[refl] theorem refl (st : State V C) : SameTasks st st := fun _ => rfl

theorem trans (first : SameTasks st st') (second : SameTasks st' st'') : SameTasks st st'' :=
  fun u => (second u).trans (first u)

theorem of_becomes (known : (st.tasks.get? t).isSome = true) (becomes : Becomes st t task' st') :
    SameTasks st st' := by
  intro u
  rw [becomes]
  split
  · next same => rw [same, known]; rfl
  · rfl

theorem modifyTask (st : State V C) (t : TaskId) (f : Task V → Task V) : SameTasks st (st.modifyTask t f) := by
  intro u
  rw [get?_modifyTask]
  split
  · next same => rw [same, Option.isSome_map]
  · rfl

theorem aside (aside : Aside st st') : SameTasks st st' := by
  intro u
  have rel := aside.tasks u
  revert rel
  generalize st.tasks.get? u = old
  generalize st'.tasks.get? u = new
  rintro (_ | _) <;> rfl

theorem ready (done : st.ready t = .ok st') : SameTasks st st' := by
  obtain ⟨task, found⟩ := exists_of_task done
  exact .of_becomes (by simp [found]) (becomes_ready found done)

theorem acquire {r : ResourceId} {granted : Except Deadlock Grant} (done : st.acquire r t = .ok (granted, st')) :
    SameTasks st st' := by
  obtain ⟨_, _, ⟨_, _, rfl⟩ | ⟨_, ⟨_, _, _, rfl⟩ | ⟨_, _, _, rfl⟩⟩⟩ := acquire_ok done
  · exact fun _ => rfl
  · rfl
  · exact (modifyTask st t _).trans (modifyTask _ t _)

theorem release {r : ResourceId} (done : st.release r t = .ok st') : SameTasks st st' := by
  obtain ⟨_, _, ⟨_, rfl⟩ | ⟨next, rest, _, woken⟩⟩ := release_ok done
  · exact fun _ => rfl
  · have hands : SameTasks st (st.handed next r rest) := modifyTask _ next _
    exact hands.trans (ready woken)

theorem waitFor {child : TaskId} {reply : Except Deadlock (Option (Outcome V))}
    (done : st.waitFor t child = .ok (reply, st')) : SameTasks st st' := by
  obtain ⟨awaited, found, ⟨_, _, rfl⟩ | ⟨unfinished, ⟨_, _, _, rfl⟩ | ⟨_, _, rfl⟩⟩⟩ := waitFor_ok done
  · rfl
  · rfl
  · exact (modifyTask st t _).trans (modifyTask _ child _)

theorem deeds [Inhabited V] (deeds : Deeds (fun _ _ => False) st st') : SameTasks st st' := by
  obtain ⟨st₁, st₂, before, deed, after⟩ := deeds
  refine ((aside before).trans ?_).trans (aside after)
  cases deed with
  | aside change => exact aside change
  | serve never => exact never.elim
  | acquire acquired => exact acquire acquired
  | release released => exact release released
  | waitFor waited => exact waitFor waited

theorem finish [Inhabited V] {result : Except (Error V) V} (done : st.finish t result = .ok st') :
    SameTasks st st' := by
  obtain ⟨task, found⟩ := exists_of_task done
  have ends : Ends st t result st' := ends_of_finish found (becomes_refl found) rfl rfl rfl rfl done
  intro u
  by_cases same : u = t
  · subst same
    obtain ⟨life, ended, _⟩ := ends.terminal
    obtain ⟨_, found', _⟩ := Option.map_eq_some_iff.1 ended
    simp [found, found']
  · rw [ends.others same, Option.isSome_map]

end SameTasks

end State

namespace Config

open State

variable [Inhabited V] {c config : Config V C}

/-- A step that makes no request creates no task. -/
theorem sameTasks_of_step (mute : ∀ request next, c.focus ≠ .code (.ask request next)) (step : c.step = .ok config) :
    SameTasks c.state config.state := by
  have course : Course (fun _ _ => False) c config :=
    course_of_step (fun request next asks => mute request next asks) step
  cases course with
  | deeds deeds => exact .deeds deeds
  | @begins t w st₁ taken begun =>
    obtain ⟨task, found⟩ : ∃ task, st₁.tasks.get? t = some task := by
      simp only [State.beginRun, State.advance, bind_ok, task_ok] at begun
      obtain ⟨_, ⟨task, found, _⟩, _⟩ := begun
      exact ⟨task, found⟩
    have runs : SameTasks st₁ config.state := .of_becomes (by simp [found]) (becomes_beginRun found begun)
    rcases taken with ⟨s, _, taken⟩ | ⟨_, rfl⟩
    · rcases takeReady_ok taken with ⟨impossible, _⟩ | ⟨first, rest, _, _, _, rfl⟩
      · cases impossible
      · have leaves : SameTasks c.state (c.state.dequeued first s rest) := .modifyTask _ first _
        exact leaves.trans runs
    · exact runs
  | @parks t st₁ aside parked =>
    obtain ⟨task, found⟩ := exists_of_task parked
    exact (SameTasks.aside aside).trans (.of_becomes (by simp [found]) (becomes_park found parked))
  | finishes aside finished => exact (SameTasks.aside aside).trans (.finish finished)

/-- A step that makes no request leaves no more tasks unfinished. -/
theorem ages_of_step (mute : ∀ request next, c.focus ≠ .code (.ask request next)) (step : c.step = .ok config) :
    Ages c.state config.state := by
  refine ⟨sameTasks_of_step mute step, fun {u life} was ended => ?_⟩
  cases affects_of_step step with
  | touches touches => exact touches.ended was ended
  | begins ready touches => exact touches.ended was ended
  | @ends t result subject ends =>
    by_cases same : u = t
    · rw [same, ends.live] at was
      simp [← Option.some.inj was, Life.isTerminal] at ended
    · -- Only tasks that wait or run are woken.
      have apart : u ∉ c.state.joiners t := by
        intro joins
        rcases (ends.awake joins).2 with live | live <;> rw [live] at was <;>
          simp [← Option.some.inj was, Life.isTerminal] at ended
      rw [State.life, ends.others same, List.count_eq_zero_of_not_mem apart, Function.iterate_zero, Option.map_id]
      exact was

/-! ## Climbing down -/

/-- How much is left to do with an answer: less and less, the further it is passed on. -/
noncomputable def answering (st : State V C) (a : Answer V) : List (Activation V C) → Nat × Nat
  | .opened _ :: stack => ((answering st a stack).1, (answering st a stack).2 + 1)
  | .cancel _ doomed _ _ _ :: _ => (0, 2 * st.frames.size + 3 + doomed.length)
  | .frame _ f _ :: _ =>
    match a with
    | .done _ | .throw _ => (0, 2 * st.below f)
    | .suspended | .jump _ _ => (1, 0)
  | _ => (0, 0)

/-- How much is left to do for a thread before a frame wears out or a task finishes. -/
noncomputable def climb (c : Config V C) : Nat ×ₗ Nat :=
  match c.focus with
  | .code (.answer a) => toLex (answering c.state a c.stack)
  | .trampoline t _ => toLex (0, 2 * (c.state.top t).elim 0 c.state.below + 1)
  | .drain _ _ _ => toLex (0, 2 * c.state.frames.size + 2)
  | _ => toLex (0, 0)

section

omit [Inhabited V]

variable {st st' : State V C} {d : Drive V C} {fs fs' : List FrameId}

theorem answering_congr {a : Answer V} (callers : st'.caller = st.caller)
    (size : st'.frames.size = st.frames.size) (stack : List (Activation V C)) :
    answering st' a stack = answering st a stack := by
  induction stack with
  | nil => rfl
  | cons x stack inductionHypothesis =>
    cases x with
    | opened => rw [answering, answering, inductionHypothesis]
    | cancel => rw [answering, answering, size]
    | frame => cases a <;> simp only [answering, below_congr callers size]
    | call => rfl

theorem trampoline_le (st : State V C) (t : TaskId) :
    2 * (st.top t).elim 0 st.below + 1 ≤ 2 * st.frames.size + 1 := by
  cases st.top t with
  | none => simp
  | some f =>
    have := st.below_le f
    simp only [Option.elim_some]
    omega

theorem lt_of_second {i j k : Nat} (less : j < k) : toLex (i, j) < toLex (i, k) :=
  Prod.Lex.toLex_lt_toLex.2 (.inr ⟨rfl, less⟩)

theorem lt_of_first {j k : Nat} : toLex (0, j) < toLex (1, k) := Prod.Lex.toLex_lt_toLex.2 (.inl Nat.zero_lt_one)

theorem turns_of_busy {p : Program V C} {stack : List (Activation V C)} (busy : ∀ a, p ≠ .answer a) :
    Turns ⟨st, .code p, stack⟩ := by
  cases p with
  | answer a => exact absurd rfl (busy a)
  | _ => trivial

/-- A frame that is resumed and runs no code wears out, or passes on what it got. -/
theorem climbs_resumed {h : FrameId} {resumption : Resumption V C} (stirs : Stirs st h resumption st')
    (spared : st.engages h = false) :
    st'.wear (fun _ => true) < st.wear (fun _ => true) ∨
      (∃ a : Answer V, a.IsFinal ∧ resumption = ⟨.answer a, none⟩) ∧ st'.caller = st.caller ∧
        st'.frames.size = st.frames.size := by
  obtain ⟨_, lower | passes⟩ := stirs.lowers_or_final spared
  · exact .inl (stirs.wears.lt lower)
  · exact .inr passes

/-- When no code goes on, then a frame wears out, a task finishes, or the thread climbs down. -/
theorem Flows.climbs {c c' : Config V C} (flows : Flows c fs c' fs') (nested : c.Nested d fs)
    (acyclic : Acyclic c.state.caller) (ages : Ages c.state c'.state) (quiet : c.event? fs = none)
    (rests : ¬ c.Turns) :
    c'.state.wear (fun _ => true) < c.state.wear (fun _ => true) ∨
      c'.state.unfinished < c.state.unfinished ∨ c'.climb < c.climb := by
  -- A frame that is resumed here runs no code.
  have spared {h : FrameId} (wakes : c.wakes? = some h)
      (answers : ∀ g name context arguments next, c.focus ≠ .code (.callNative g name context arguments next)) :
      c.state.engages h = false := by
    by_contra made
    have event : c.event? fs = c.wakes?.filter fun g => c.state.engages g := by
      unfold event?
      split
      · next same => exact absurd same (answers _ _ _ _ _)
      · rfl
    rw [event, wakes] at quiet
    simp [Option.filter, made] at quiet
  cases flows with
  | goes busy => exact absurd (turns_of_busy busy) rests
  | calls => exact absurd trivial rests
  | opens busy => exact absurd (turns_of_busy busy) rests
  | drives busy => exact absurd (turns_of_busy busy) rests
  | unwinds => exact absurd trivial rests
  | hands => exact absurd trivial rests
  | drained empty => exact absurd empty rests
  | @closes st x a stack fs =>
    refine .inr (.inr ?_)
    have frames : (st.closePayload x).frames = st.frames := rfl
    have same : answering (st.closePayload x) a stack = answering st a stack :=
      answering_congr (caller_of_frames frames) (by rw [frames]) stack
    simp only [climb, same, answering]
    exact lt_of_second (Nat.lt_succ_self _)
  | @takes st st' s t n next stack fs busy frames =>
    have bound := trampoline_le st' t
    rw [frames] at bound
    have less : 2 * (st'.top t).elim 0 st'.below + 1 < 2 * st.frames.size + 2 := by omega
    exact .inr (.inr (lt_of_second less))
  | @resumes st st' t f after resumption stack fs top stirs =>
    have wakes : wakes? ⟨st, .trampoline t after, stack⟩ = some f := by
      simp [wakes?, agent, Agent.resumed?, top]
    rcases climbs_resumed stirs (spared wakes (by simp)) with worn | ⟨⟨a, final, rfl⟩, callers, size⟩
    · exact .inl worn
    · refine .inr (.inr ?_)
      simp only [climb, top, Option.elim_some, Option.map_none, Option.toList_none, List.nil_append]
      cases a with
      | done | throw =>
        simp only [answering, below_congr callers size]
        exact lt_of_second (Nat.lt_succ_self _)
      | suspended | jump => exact final.elim
  | @suspends st st' t f g after stack fs frames =>
    cases nested.stack with
    | frame goes rest =>
      obtain ⟨s, n, next, rfl, _⟩ := goes
      exact .inr (.inr lt_of_first)
  | finishes frames live ended => exact .inr (.inl (ages.unfinished_lt live ended))
  | @returns st st' t f g caller a after stack fs final link top frames =>
    refine .inr (.inr ?_)
    have less : st.below caller < st.below f := below_lt acyclic link
    simp only [climb, top, Option.elim_some, below_of_frames frames]
    cases a with
    | done | throw => exact lt_of_second (by omega)
    | suspended | jump => exact final.elim
  | lands frames => exact .inr (.inr lt_of_first)
  | @leaps st st' t f g h target value rest after resumption stack fs wakes stirs =>
    rcases climbs_resumed stirs (spared wakes (by simp)) with worn | ⟨⟨a, final, rfl⟩, callers, size⟩
    · exact .inl worn
    · exact .inr (.inr lt_of_first)
  | @cancels st st' t g h target a value rest after resumption stack fs stirs =>
    have wakes : wakes? ⟨st, .code (.answer a), .cancel t (h :: rest) target value after :: stack⟩ = some h := by
      cases a <;> simp [wakes?, agent, Agent.resumed?]
    rcases climbs_resumed stirs (spared wakes (by simp)) with worn | ⟨⟨a', final, rfl⟩, callers, size⟩
    · exact .inl worn
    · refine .inr (.inr (lt_of_second ?_))
      simp only [List.length_cons, size]
      omega
  | @unwound st t g target a value after stack fs =>
    cases nested.stack with
    | cancel goes busy rest =>
      cases after with
      | code next => exact absurd trivial rests
      | trampoline u after =>
        refine .inr (.inr (lt_of_second ?_))
        have := trampoline_le (landAt st t target value) u
        have size : (landAt st t target value).frames.size = st.frames.size := rfl
        simp only [List.length_nil]
        omega
      | drain | waiting | work | own | rest => exact absurd goes busy

end

end Config

end Tasking
