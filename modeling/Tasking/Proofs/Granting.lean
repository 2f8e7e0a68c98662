import Tasking.Proofs.Dealing

/-! # First come, first served

Tasks become owners of a resource in the order in which their requests for it were accepted, whatever
code does meanwhile (`Crew.Run.grants_in_order`).  The histories of the accepted requests and of the
owners are read off the operations that a run carries out, step by step; the line of waiters is always
what the first has more than the second.
-/

namespace Tasking

variable {V C : Type}

namespace Crew

variable [Inhabited V] {allowed : Crew V C → Agent V C → Prop}

/-- One step of a crew, together with the operation on a resource that it carries out, if it carries
out one. -/
inductive Deals : Crew V C → Option Dealing → Crew V C → Prop where
  | act {st : State V C} {before after : List (Agent V C)} {a : Agent V C} {config : Config V C}
      (step : (a.config st).step = .ok config) :
      Deals ⟨st, before ++ a :: after⟩ (a.dealing? st)
        ⟨config.state, before ++ ⟨config.focus, config.stack⟩ :: after⟩
  | join {st : State V C} {agents : List (Agent V C)} {a : Agent V C} (new : a.IsNew) :
      Deals ⟨st, agents⟩ none ⟨st, agents ++ [a]⟩
  | lapse {st : State V C} {before after : List (Agent V C)} {condition : Until} {limit : Option Nat}
      {next : Program V C} {stack : List (Activation V C)} :
      Deals ⟨st, before ++ ⟨.waiting condition limit next, stack⟩ :: after⟩ none
        ⟨st, before ++ ⟨.code next, stack⟩ :: after⟩
  | switch {st : State V C} {agents : List (Agent V C)} (thread : Thread) :
      Deals ⟨st, agents⟩ none ⟨{ st with running := thread }, agents⟩

variable {c c' : Crew V C} {dealing : Option Dealing}

theorem Step.deals {label : Option (TaskId × FrameId)} (step : Step allowed c label c') :
    ∃ dealing, Deals c dealing c' := by
  cases step with
  | act _ step => exact ⟨_, .act step⟩
  | join new => exact ⟨_, .join new⟩
  | lapse => exact ⟨_, .lapse⟩
  | switch thread => exact ⟨_, .switch thread⟩

theorem Deals.dealt (deals : Deals c dealing c') : c.state.Dealt dealing c'.state := by
  cases deals with
  | act step => exact Config.dealt_of_step step
  | join | lapse | switch => exact .of_resources rfl

namespace Run

variable (run : Run V C allowed)

/-- The operations that the steps of a run carry out. -/
def Deals (dealing : Nat → Option Dealing) : Prop :=
  ∀ i < run.length, Crew.Deals (run.crew i) (dealing i) (run.crew (i + 1))

/-- Whose requests for a resource were accepted in so many steps, in the order in which they were made. -/
def accepted (dealing : Nat → Option Dealing) (r : ResourceId) : Nat → List TaskId
  | 0 => []
  | i + 1 => accepted dealing r i ++ (run.crew i).state.accepts r (dealing i)

/-- Who became the owner of a resource in so many steps, in the order in which they did. -/
def granted (dealing : Nat → Option Dealing) (r : ResourceId) : Nat → List TaskId
  | 0 => []
  | i + 1 => granted dealing r i ++ (run.crew i).state.grants (run.crew (i + 1)).state r (dealing i)

variable {run} {dealing : Nat → Option Dealing} {r : ResourceId} {i : Nat}

theorem exists_deals (run : Run V C allowed) : ∃ dealing, run.Deals dealing := by
  have exists_each : ∀ i, ∃ dealing, i < run.length → Crew.Deals (run.crew i) dealing (run.crew (i + 1)) := by
    intro i
    by_cases bound : i < run.length
    · obtain ⟨dealing, deals⟩ := (run.steps i bound).deals
      exact ⟨dealing, fun _ => deals⟩
    · exact ⟨none, fun within => absurd within bound⟩
  choose dealing deals using exists_each
  exact ⟨dealing, deals⟩

/-- The histories of a resource up to now: whoever was accepted and is not in line became the owner, and
the owner is whoever became so last. -/
structure Served (run : Run V C allowed) (dealing : Nat → Option Dealing) (r : ResourceId) (i : Nat) : Prop where
  line : run.accepted dealing r i = run.granted dealing r i ++ (run.crew i).state.waiters r
  free : (run.crew i).state.owner r = none → (run.crew i).state.waiters r = []
  owner : ∀ t, (run.crew i).state.owner r = some t → (run.granted dealing r i).getLast? = some t

theorem Served.step (served : run.Served dealing r i)
    (hands : (run.crew i).state.Hands (run.crew (i + 1)).state r
      ((run.crew i).state.accepts r (dealing i)) ((run.crew i).state.grants (run.crew (i + 1)).state r (dealing i))) :
    run.Served dealing r (i + 1) where
  line := by
    rw [accepted, granted, served.line, List.append_assoc, hands.line, List.append_assoc]
  free := hands.free
  owner t owns := by
    rw [granted]
    rcases hands.owned t owns with given | ⟨nothing, owned⟩
    · rw [given, List.getLast?_concat]
    · rw [nothing, List.append_nil]
      exact served.owner t owned

theorem served (deals : run.Deals dealing) (r : ResourceId) : ∀ i ≤ run.length, run.Served dealing r i := by
  intro i
  induction i with
  | zero =>
    intro _
    obtain ⟨parallelism, starts⟩ := run.starts
    have nobody : (run.crew 0).state.waiters r = [] ∧ (run.crew 0).state.owner r = none := by
      rw [starts]
      simp [initial, State.initial, State.waiters, State.owner]
    exact ⟨by rw [nobody.1]; rfl, fun _ => nobody.1, fun t owns => by simp [nobody.2] at owns⟩
  | succ i inductionHypothesis =>
    intro bound
    have served := inductionHypothesis (by omega)
    exact served.step ((deals i (by omega)).dealt.hands served.free)

/-- Tasks become owners of a resource in the order in which their requests were accepted, each request is
granted once at most, and those in line are the ones whose requests were not granted yet.  Whoever tries to
take a resource while others are in line for it does not get it.  Who gives a resource up owned it; it is
free then and nobody was in line, or it goes to the task that was in line longest, which is woken, and
nobody else is. -/
theorem grants_in_order (run : Run V C allowed) : (∃ dealing, run.Deals dealing) ∧
    ∀ {dealing}, run.Deals dealing → ∀ r,
      (∀ i ≤ run.length,
        run.accepted dealing r i = run.granted dealing r i ++ (run.crew i).state.waiters r ∧
        ((run.crew i).state.owner r = none → (run.crew i).state.waiters r = []) ∧
        (∀ t, (run.crew i).state.owner r = some t → (run.granted dealing r i).getLast? = some t) ∧
        ∀ resource, (run.crew i).state.resources.get? r = some resource →
          (run.granted dealing r i).length + resource.waiters.length = (run.accepted dealing r i).length) ∧
      (∀ i < run.length, ∀ t, dealing i = some (.tryAcquire r t) → (run.crew i).state.waiters r ≠ [] →
        (run.crew i).state.accepts r (dealing i) = [] ∧
          (run.crew (i + 1)).state.owner r = (run.crew i).state.owner r ∧
          (run.crew (i + 1)).state.waiters r = (run.crew i).state.waiters r) ∧
      ∀ i < run.length, ∀ t, dealing i = some (.release r t) → (run.crew i).state.owner r = some t ∧
        ((run.crew i).state.waiters r = [] ∧ (run.crew (i + 1)).state.owner r = none ∧
            (run.crew (i + 1)).state.waiters r = [] ∧
            (∀ u, Option.Rel Task.SameBooks ((run.crew i).state.tasks.get? u)
              ((run.crew (i + 1)).state.tasks.get? u)) ∨
          ∃ next rest, (run.crew i).state.waiters r = next :: rest ∧
            (run.crew (i + 1)).state.owner r = some next ∧ (run.crew (i + 1)).state.waiters r = rest ∧
            (run.crew i).state.Rouses (run.crew (i + 1)).state next) := by
  refine ⟨run.exists_deals, fun {dealing} deals r => ⟨fun i bound => ?_, fun i bound t tries queued => ?_,
    fun i bound t gives => ?_⟩⟩
  · have served := run.served deals r i bound
    refine ⟨served.line, served.free, served.owner, fun resource found => ?_⟩
    rw [served.line, List.length_append, State.waiters_of_get? found, Line.length_toList]
  · have owned : (run.crew i).state.owner r ≠ none :=
      fun nobody => queued ((run.served deals r i (by omega)).free nobody)
    have dealt := (deals i bound).dealt
    rw [tries] at dealt ⊢
    exact dealt.tried owned
  · have dealt := (deals i bound).dealt
    rw [gives] at dealt
    obtain ⟨owner, waiters⟩ := dealt.handed
    obtain ⟨owns, ⟨nobody, same⟩ | ⟨next, rest, line, rouses⟩⟩ := dealt.rouses
    · rw [nobody] at owner waiters
      exact ⟨owns, .inl ⟨nobody, owner, waiters, same⟩⟩
    · rw [line] at owner waiters
      exact ⟨owns, .inr ⟨next, rest, line, owner, waiters, rouses⟩⟩

end Run

end Crew

end Tasking
