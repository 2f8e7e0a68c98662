import Tasking.Pool

/-! # What all scenarios share

A scenario is a program for a host that creates a scheduler, gives it work, and shuts it
down.  What comes of it is read off the state in which the machine ends.
-/

namespace Tasking.Scenario

variable {V C : Type}

/-- The program of a host that creates a scheduler, gives it work, and shuts it down. -/
def program [Inhabited V] (settings : Settings) (work : SchedulerId → Code V C Unit) :
    Program V C :=
  Code.program do
    let registry ← Code.ask .newRegistry
    match ← Code.ask (.newScheduler settings registry) with
    | .error _ => return .done default
    | .ok s =>
      work s
      Code.shutdown s
      return .done default

/-- The state that a program reaches in at most so many steps. -/
def finalState [Inhabited V] (steps parallelism : Nat) (p : Program V C) : State V C :=
  (Pool.run steps (.start (.initial parallelism) p)).state

/-- The scheduler of a scenario. -/
def scheduler : SchedulerId := ⟨1⟩

/-- How many workers a scheduler has, and what is left of its work. -/
structure Load where
  workers : Nat
  stats : Stats
  deriving DecidableEq

/-- The load of the scenario's scheduler. -/
def Load.ofState (st : State V C) : Load :=
  match st.schedulers.get? scheduler with
  | some s => ⟨s.workers, st.statsOf scheduler s⟩
  | none => ⟨0, ⟨0, 0, 0, 0, 0⟩⟩

/-- How the tasks ended, in the order of their creation. -/
def outcomes (st : State V C) : List (Option (Outcome V)) :=
  st.tasks.entries.toList.map Task.outcome

end Tasking.Scenario
