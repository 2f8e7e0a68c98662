import Mathlib.Data.Fin.Basic
import Mathlib.Data.Fin.SuccPred
import Mathlib.Algebra.Group.Fin.Basic
import Tasking.Proofs.Dealing
import Tasking.Proofs.Ring.Scene

/-! # The wait graph of a ring

While every task of a ring owns its first resource, the task at a place depends on the one at the next place
as soon as it has asked for its second resource.  A walk from a place goes around the ring until it comes to
a task that has not asked.  A request thus closes a cycle exactly if it is the last one, and then the cycle
goes once around the ring.
-/

namespace Tasking.Scenario.Ring

open State

variable {n : Nat} {ring : Layout n} {scene : Scene n} {st : State Unit Nat} {p q u v : Fin (n + 1)}

/-! ## Distances around the ring -/

/-- The place that is so many places on. -/
def onward (p : Fin (n + 1)) (i : Nat) : Fin (n + 1) := Fin.ofNat (n + 1) (p + i)

theorem onward_zero (p : Fin (n + 1)) : onward p 0 = p := by
  simp [onward]

theorem onward_succ (p : Fin (n + 1)) (i : Nat) : onward (p + 1) i = onward p (i + 1) := by
  apply Fin.ext
  have one : ((1 : Fin (n + 1)) : Nat) = 1 % (n + 1) := rfl
  simp only [onward, Fin.val_ofNat, Fin.val_add, one]
  rw [Nat.mod_add_mod, Nat.add_right_comm, Nat.add_mod_mod, Nat.add_assoc]

/-- The tasks that one meets on the way around the ring. -/
def path (ring : Layout n) (p : Fin (n + 1)) (length : Nat) : List TaskId :=
  (List.range length).map fun i => ring.task (onward p i)

theorem path_succ (ring : Layout n) (p : Fin (n + 1)) (length : Nat) :
    path ring p (length + 1) = ring.task p :: path ring (p + 1) length := by
  simp [path, List.range_succ_eq_map, onward_zero, onward_succ, Function.comp_def]

/-- The next place is one place nearer to all other places. -/
theorem nearer (differs : q ≠ v) : (v - (q + 1)).val + 1 = (v - q).val := by
  have apart : v - q ≠ 0 := fun same => differs (sub_eq_zero.1 same).symm
  rw [← sub_sub, Fin.val_sub_one_of_ne_zero apart]
  have positive : (v - q).val ≠ 0 := fun same => apart (Fin.ext same)
  omega

/-- Around the ring, a place is as far as can be from the one behind it. -/
theorem farthest (v : Fin (n + 1)) : (v - (v + 1)).val = n := by
  rw [← sub_sub, sub_self, zero_sub]
  exact Fin.coe_neg_one

/-! ## Walks -/

/-- Every task owns its first resource, and those at some places have asked for their second one and wait. -/
structure Circled (ring : Layout n) (scene : Scene n) (asked : Fin (n + 1) → Prop) : Prop where
  home : ∀ p, (scene.seat p).task.scheduler = ring.scheduler
  listed : ∀ p, (scene.seat p).task.listed = true
  owner : ∀ p, scene.owner p = some p
  waits : ∀ p, asked p → (scene.seat p).task.waiting = some (.resource (ring.resource (p + 1)))
  free : ∀ p, ¬ asked p → (scene.seat p).task.waiting = none
  tasks : scene.tasks = n + 1

variable {asked : Fin (n + 1) → Prop}

namespace Circled

/-- Who asks for a resource comes to the task at its place. -/
theorem blocker (circled : Circled ring scene asked) (shows : Shows ring scene st) (p : Fin (n + 1)) :
    st.blocker ring.scheduler (.resource (ring.resource p)) = some (ring.task p) := by
  rw [blocker_resource_eq, shows.owner, circled.owner]
  simp [listedTask?, shows.task, circled.listed, circled.home]

theorem nextWaited_of_asked (circled : Circled ring scene asked) (shows : Shows ring scene st)
    (asks : asked p) : st.nextWaited ring.scheduler (ring.task p) = some (ring.task (p + 1)) := by
  simp [State.nextWaited, shows.task, circled.waits p asks, circled.blocker shows]

theorem nextWaited_of_not_asked (circled : Circled ring scene asked) (shows : Shows ring scene st)
    (idle : ¬ asked p) : st.nextWaited ring.scheduler (ring.task p) = none := by
  simp [State.nextWaited, shows.task, circled.free p idle]

/-- When all others have asked, a walk goes on to the requester. -/
theorem walk_around (circled : Circled ring scene asked) (shows : Shows ring scene st)
    (all : ∀ p, p ≠ v → asked p) (d : Nat) : ∀ q, (v - q).val = d → ∀ bound, d < bound →
      st.walk ring.scheduler (ring.task v) bound (ring.task q) =
        some (path ring q (d + 1)) := by
  -- The induction is on the distance to the requester.
  induction d with
  | zero =>
    intro q here bound enough
    obtain ⟨bound, rfl⟩ := Nat.exists_eq_succ_of_ne_zero enough.ne'
    obtain rfl : v = q := sub_eq_zero.1 (Fin.ext here)
    simp [State.walk, path, onward_zero]
  | succ d inductionHypothesis =>
    intro q there bound enough
    obtain ⟨bound, rfl⟩ := Nat.exists_eq_succ_of_ne_zero (Nat.ne_of_gt (Nat.zero_lt_of_lt enough))
    have differs : q ≠ v := by
      rintro rfl
      simp at there
    have other : ring.task q ≠ ring.task v := fun same => differs (ring.task_inj same)
    have near := nearer differs
    have further := inductionHypothesis (q + 1) (by omega) bound (by omega)
    rw [State.walk, if_neg other, circled.nextWaited_of_asked shows (all q differs)]
    simp only [Option.bind_eq_bind, Option.bind_some, further, path_succ ring q (d + 1)]

/-- A walk ends at a task that has not asked, if it comes there before the requester. -/
theorem walk_stops (circled : Circled ring scene asked) (shows : Shows ring scene st) (idle : ¬ asked u)
    (bound : Nat) : ∀ q, (u - q).val < (v - q).val →
      st.walk ring.scheduler (ring.task v) bound (ring.task q) = none := by
  induction bound with
  | zero => exact fun _ _ => rfl
  | succ bound inductionHypothesis =>
    intro q nearby
    have differs : q ≠ v := by
      rintro rfl
      simp at nearby
    rw [State.walk, if_neg fun same => differs (ring.task_inj same)]
    by_cases asks : asked q
    · have other : q ≠ u := fun same => idle (same ▸ asks)
      have near := nearer differs
      have near' := nearer other
      rw [circled.nextWaited_of_asked shows asks]
      simp [inductionHypothesis (q + 1) (by omega)]
    · rw [circled.nextWaited_of_not_asked shows asks]
      rfl

/-! ## Refusals -/

/-- What comes of a request for the second resource, as the walk tells it. -/
theorem refusal? (circled : Circled ring scene asked) (shows : Shows ring scene st) (v : Fin (n + 1)) :
    st.refusal? (ring.task v) (.resource (ring.resource (v + 1))) =
      (st.walk ring.scheduler (ring.task v) (n + 2) (ring.task (v + 1))).map fun met =>
        ⟨ring.task v, ring.task v :: met⟩ := by
  obtain ⟨scheduler, found, runs⟩ := shows.scheduler
  have tasks : scheduler.tasks.toNat + 1 = n + 2 := by
    have total := runs.tasks.trans circled.tasks
    omega
  have walks := circled.blocker shows (v + 1)
  simp only [State.refusal?, State.findCycle, State.detects, shows.task, circled.home, found, runs.detection,
    walks, tasks, Option.bind_eq_bind, Option.bind_some, Option.any_some, ↓reduceIte]
  cases st.walk ring.scheduler (ring.task v) (n + 2) (ring.task (v + 1)) <;> rfl

/-- A request that is not the last one is not refused. -/
theorem allowed (circled : Circled ring scene asked) (shows : Shows ring scene st) (other : u ≠ v)
    (idle : ¬ asked u) : st.refusal? (ring.task v) (.resource (ring.resource (v + 1))) = none := by
  have near : (u - (v + 1)).val < (v - (v + 1)).val := by
    have far := farthest v
    have bound := (u - (v + 1)).isLt
    have differs : (u - (v + 1)).val ≠ (v - (v + 1)).val := fun same => other (sub_left_injective (Fin.ext same))
    omega
  rw [circled.refusal? shows, circled.walk_stops shows idle _ _ near]
  rfl

/-- The last request is refused: the cycle goes once around the ring. -/
theorem refused (circled : Circled ring scene asked) (shows : Shows ring scene st)
    (all : ∀ p, p ≠ v → asked p) : st.refusal? (ring.task v) (.resource (ring.resource (v + 1))) =
      some ⟨ring.task v, path ring v (n + 2)⟩ := by
  rw [circled.refusal? shows, circled.walk_around shows all n (v + 1) (farthest v) (n + 2) (by omega),
    path_succ ring v (n + 1)]
  rfl

end Circled

end Tasking.Scenario.Ring
