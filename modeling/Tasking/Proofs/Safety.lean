import Tasking.Proofs.Lookup

/-! # Computations that break nothing

A fault is foreign if it is about a number, a name or a variable that the host made up; all other
faults mean that the runtime's own bookkeeping broke.  `Safe x` says that nothing of that kind
happens in `x`: it delivers its result, or it meets a foreign fault.
-/

namespace Tasking

variable {V C : Type}

/-- A fault about something that the host made up. -/
def Fault.isForeign : Fault → Bool
  | .unknown _ _ | .nulInThreadName _ | .badVariable _ _ _ => true
  | _ => false

/-- No bookkeeping breaks. -/
def Safe {α : Type} (x : Attempt V C α) : Prop :=
  ∀ crash, x = .error crash → crash.fault.isForeign = true

namespace Safe

variable {α β : Type} {st : State V C}

theorem ok (a : α) : Safe (.ok a : Attempt V C α) := by simp [Safe]

theorem pure (a : α) : Safe (Pure.pure a : Attempt V C α) := ok a

theorem bind {x : Attempt V C α} {f : α → Attempt V C β} (first : Safe x)
    (rest : ∀ a, x = .ok a → Safe (f a)) : Safe (x >>= f) := by
  intro crash met
  cases found : x with
  | error other =>
    obtain rfl : other = crash := by simpa [found, Bind.bind, Except.bind] using met
    exact first other found
  | ok a =>
    apply rest a found
    simpa [found, Bind.bind, Except.bind] using met

theorem find {kind : Kind} (st : State V C) (table : Table kind α) (i : Id kind) :
    Safe (st.find table i) := by
  intro crash met
  unfold State.find State.fail at met
  cases found : table.get? i with
  | none =>
    rw [found] at met
    obtain rfl := Except.error.inj met
    rfl
  | some a => simp [found] at met

theorem task (t : TaskId) : Safe (st.task t) := find st _ t

theorem frame (f : FrameId) : Safe (st.frame f) := find st _ f

theorem resource (r : ResourceId) : Safe (st.resource r) := find st _ r

theorem exclusive (x : ExclusiveId) : Safe (st.exclusive x) := find st _ x

theorem actor (a : ActorId) : Safe (st.actor a) := find st _ a

theorem scheduler (s : SchedulerId) : Safe (st.scheduler s) := find st _ s

theorem registry (g : RegistryId) : Safe (st.registry g) := find st _ g

theorem cell (i : CellId) : Safe (st.cell i) := find st _ i

/-- A check that is passed. -/
theorem check {p : Prop} [Decidable p] {fault : Fault} {unreached : α → Attempt V C β}
    {rest : Attempt V C β} (passed : ¬ p) (safe : Safe rest) :
    Safe (if p then st.fail fault >>= unreached else rest) := by
  rwa [if_neg passed]

theorem guard {p : Prop} [Decidable p] {fault : Fault} {rest : Attempt V C β} (passed : ¬ p)
    (safe : Safe rest) : Safe (if p then st.fail fault else rest) := by
  rwa [if_neg passed]

end Safe

end Tasking
