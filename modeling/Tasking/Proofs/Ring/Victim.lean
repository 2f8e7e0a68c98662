import Mathlib.Data.Fintype.Card
import Mathlib.Data.List.Rotate
import Tasking.Proofs.Ring.Circle
import Tasking.Proofs.Ring.Rounds

/-! # The victim of a ring

The run of a ring has three parts.  First all tasks take their first resource (`meeting`).  Then they ask for
their second one, one after the other, and each but the last is parked (`asking`).  The last one is refused
and ends; it hands its resource to the task behind it, which thereby has both of its resources, ends, and
hands its own first resource to the task behind it, and so on once around the ring (`handing`).
-/

namespace Tasking.Scenario.Ring

open State

variable {n : Nat} {ring : Layout n} {p q v x : Fin (n + 1)} {frames : Nat}
  {after : Focus Unit Nat} {stack : List (Activation Unit Nat)} {next : Nat → Program Unit Nat} {runs : Nat}

@[ext] theorem Scene.ext' {a b : Scene n} (seat : ∀ p, a.seat p = b.seat p) (owner : ∀ p, a.owner p = b.owner p)
    (line : ∀ p, a.line p = b.line p) (holding : a.holding = b.holding) (tasks : a.tasks = b.tasks)
    (runnable : a.runnable = b.runnable) (queue : a.queue = b.queue) (frames : a.frames = b.frames) : a = b := by
  cases a
  cases b
  simp only [Scene.mk.injEq]
  exact ⟨funext seat, funext owner, funext line, holding, tasks, runnable, queue, frames⟩

/-! ## First resources -/

section

variable (ring : Layout n) (frames : Nat)

/-- Some tasks have taken their first resource, the others are yet to run. -/
def meeting (met rest : List (Fin (n + 1))) : Scene n where
  seat q := if q ∈ met then .met ring q else .fresh ring q
  owner q := if q ∈ met then some q else none
  line _ := []
  holding := met.length
  tasks := n + 1
  runnable := n + 1
  queue := rest ++ met
  frames := frames

/-- Some tasks have asked for their second resource and are parked, the others are yet to ask. -/
def asking (asked rest : List (Fin (n + 1))) : Scene n where
  seat q := if q ∈ asked then .parked ring q else .met ring q
  owner q := some q
  line q := if q - 1 ∈ asked then [q - 1] else []
  holding := n + 1
  tasks := n + 1
  runnable := rest.length
  queue := rest
  frames := frames + 2 * asked.length

end

/-- One task after the other takes its first resource and yields. -/
theorem meets (last : Fin (n + 1)) (rest : List (Fin (n + 1))) : ∀ (met : List (Fin (n + 1))) (runs : Nat),
    (met ++ rest).Nodup → met.length + rest.length < n + 1 →
    Leads ring (meeting ring frames met (rest ++ [last])) ⟨.drain ring.scheduler runs next, stack⟩
      (rest.map fun p => (ring.task p, ring.resource p))
      (meeting ring frames (met ++ rest) [last]) ⟨.drain ring.scheduler (runs + rest.length) next, stack⟩ := by
  induction rest with
  | nil =>
    intro met runs _ _
    simpa using Leads.refl
  | cons p rest inductionHypothesis =>
    intro met runs distinct few
    simp only [List.length_cons] at few
    have absent : p ∉ met := fun member => (List.disjoint_of_nodup_append distinct) member List.mem_cons_self
    have here : meeting ring frames met (p :: rest ++ [last]) =
        { meeting ring frames met [] with queue := p :: (rest ++ [last] ++ met) }.set p (.fresh ring p) := by
      apply Scene.ext' <;> intros <;> simp [meeting, Scene.seat_set]
      intro same
      simp [same, absent]
    have there : ({ meeting ring frames met [] with
        queue := rest ++ [last] ++ met ++ [p], owner := Function.update (meeting ring frames met []).owner p (some p),
        holding := met.length + 1 } : Scene n).set p (.met ring p) =
          meeting ring frames (met ++ [p]) (rest ++ [last]) := by
      apply Scene.ext' <;> intros <;> simp [meeting, Scene.seat_set, Function.update_apply]
      · next q => by_cases same : q = p <;> simp [same]
      · next q => by_cases same : q = p <;> simp [same]
    have first : Leads ring (meeting ring frames met (p :: rest ++ [last])) ⟨.drain ring.scheduler runs next, stack⟩
        [(ring.task p, ring.resource p)] (meeting ring frames (met ++ [p]) (rest ++ [last]))
        ⟨.drain ring.scheduler (runs + 1) next, stack⟩ := by
      rw [here, ← there]
      refine .quiet (comes (meeting ring frames met []) (by simp [meeting, absent])) (yields ?_)
      show met.length + 1 < n + 1
      omega
    have second := inductionHypothesis (met ++ [p]) (runs + 1) (by simpa using distinct) (by simp; omega)
    rw [List.append_assoc, List.singleton_append, Nat.add_assoc, Nat.add_comm 1] at second
    exact first.trans second

/-! ## Second resources -/

/-- While a task asks for its second resource, the wait graph is that of the tasks which asked before. -/
theorem circled_asking {asked : List (Fin (n + 1))} {scene : Scene n} {phase : Phase Unit} (absent : p ∉ asked)
    (seat : ∀ q, scene.seat q = if q ∈ asked then .parked ring q else .met ring q)
    (owner : scene.owner = some) (tasks : scene.tasks = n + 1) :
    Circled ring (scene.set p (.asking ring p (runner ring p .guard none) phase none)) (· ∈ asked) where
  home q := by
    rw [Scene.seat_set, seat]
    split_ifs <;> rfl
  listed q := by
    rw [Scene.seat_set, seat]
    split_ifs <;> rfl
  owner q := by rw [Scene.owner_set, owner]
  waits q member := by
    have other : q ≠ p := fun same => absent (same ▸ member)
    rw [Scene.seat_set_ne _ _ other, seat, if_pos member]
    rfl
  free q idle := by
    rw [Scene.seat_set, seat, if_neg idle]
    split_ifs <;> rfl
  tasks := tasks

/-- Where the frames stand that a task creates when it asks for its second resource. -/
structure Numbered (ring : Layout n) (frames : Nat) (order : List (Fin (n + 1))) : Prop where
  inner : ∀ {before p behind}, order = before ++ p :: behind →
    ring.frame .inner p = ⟨frames + 2 * before.length + 1⟩
  guard : ∀ {before p behind}, order = before ++ p :: behind →
    ring.frame .guard p = ⟨frames + 2 * before.length + 2⟩

/-- A task that is not the last to ask for its second resource is parked. -/
theorem askedFor {asked rest : List (Fin (n + 1))} {r : Fin (n + 1)}
    (numbered : Numbered ring frames (asked ++ p :: r :: rest)) (distinct : (asked ++ p :: r :: rest).Nodup) :
    Leads ring
      ({ asking ring frames asked (r :: rest) with runnable := rest.length + 1 + 1 }.set p
        (.inBody ring p (runner ring p .body none) 1))
      ⟨.code (decides ring p (n + 1)), .frame (ring.task p) (ring.frame .body p) after :: stack⟩
      [(ring.task p, ring.resource (p + 1))] (asking ring frames (asked ++ [p]) (r :: rest)) ⟨after, stack⟩ := by
  obtain ⟨_, distinct', apart⟩ := List.nodup_append.1 distinct
  have absent : p ∉ asked := fun member => apart p member p List.mem_cons_self rfl
  have absent' : r ∉ asked := fun member => apart r member r (by simp) rfl
  have other : r ≠ p := fun same => by simp [same] at distinct'
  have there : ({ asking ring frames asked (r :: rest) with
      line := Function.update (asking ring frames asked (r :: rest)).line (p + 1)
        ((asking ring frames asked (r :: rest)).line (p + 1) ++ [p]),
      frames := frames + 2 * asked.length + 2, runnable := rest.length + 1 + 1 - 1 } : Scene n).set p
        (.parked ring p) = asking ring frames (asked ++ [p]) (r :: rest) := by
    apply Scene.ext' <;> intros <;> simp [asking, Scene.seat_set, Function.update_apply, Nat.mul_add]
    · next q => by_cases same : q = p <;> simp [same]
    · next q =>
      by_cases same : q = p + 1
      · simp [same, absent]
      · have differs : q - 1 ≠ p := fun equal => same (by rw [← equal, sub_add_cancel])
        simp [same, differs]
    · omega
  rw [← there]
  refine .silent (asks (by omega) (numbered.inner rfl) (numbered.guard rfl)) ?_
  refine waits (by simp [asking]) ?_ fun st shows => ?_
  · show (1 : Int) ≤ rest.length + 1 + 1
    omega
  · refine Circled.allowed ?_ shows other absent'
    exact circled_asking absent (fun _ => rfl) rfl rfl

/-- One task after the other asks for its second resource and is parked, up to the last one. -/
theorem asksAll (last : Fin (n + 1)) (rest : List (Fin (n + 1))) : ∀ (asked : List (Fin (n + 1))) (runs : Nat),
    Numbered ring frames (asked ++ rest ++ [last]) → (asked ++ rest ++ [last]).Nodup →
    Leads ring (asking ring frames asked (rest ++ [last])) ⟨.drain ring.scheduler runs next, stack⟩
      (rest.map fun p => (ring.task p, ring.resource (p + 1)))
      (asking ring frames (asked ++ rest) [last]) ⟨.drain ring.scheduler (runs + rest.length) next, stack⟩ := by
  induction rest with
  | nil =>
    intro asked runs _ _
    simpa using Leads.refl
  | cons p rest inductionHypothesis =>
    intro asked runs numbered distinct
    obtain ⟨r, others, behind⟩ : ∃ r others, rest ++ [last] = r :: others := by
      cases rest with
      | nil => exact ⟨last, [], rfl⟩
      | cons r rest => exact ⟨r, rest ++ [last], rfl⟩
    have order : asked ++ p :: rest ++ [last] = asked ++ p :: r :: others := by simp [← behind]
    rw [order] at numbered distinct
    have absent : p ∉ asked := fun member => (List.disjoint_of_nodup_append distinct) member List.mem_cons_self
    have here : asking ring frames asked (p :: r :: others) =
        { asking ring frames asked (r :: others) with
          runnable := others.length + 1 + 1, queue := p :: r :: others }.set p (.met ring p) := by
      apply Scene.ext' <;> intros <;> simp [asking, Scene.seat_set]
      intro same
      simp [same, absent]
    have first : Leads ring (asking ring frames asked (p :: rest ++ [last])) ⟨.drain ring.scheduler runs next, stack⟩
        [(ring.task p, ring.resource (p + 1))] (asking ring frames (asked ++ [p]) (rest ++ [last]))
        ⟨.drain ring.scheduler (runs + 1) next, stack⟩ := by
      rw [List.cons_append, behind, here]
      exact .silent (comesBack { asking ring frames asked (r :: others) with runnable := others.length + 1 + 1 })
        (askedFor numbered distinct)
    have second := inductionHypothesis (asked ++ [p]) (runs + 1) (by simpa [← behind] using numbered)
      (by simpa [← behind] using distinct)
    rw [List.append_assoc, List.singleton_append, Nat.add_assoc, Nat.add_comm 1] at second
    exact first.trans second

/-! ## Handing on -/

section

variable (ring : Layout n) (frames : Nat) (v g : Fin (n + 1))

/-- How many places on the victim is. -/
def far (q : Fin (n + 1)) : Nat := (v - q).val

/-- Why the victim failed: waiting would have closed the whole ring. -/
def refusal : Deadlock := ⟨ring.task v, path ring v (n + 2)⟩

/-- How a task ended. -/
def endedAs (q : Fin (n + 1)) : Seat :=
  if q = v then .ended ring q (.error (.deadlock (refusal ring v))) none
  else .ended ring q (.ok ()) (some (ring.frame .guard q))

/-- The task at the place `g` has both of its resources; those nearer to the victim have ended, the others
    are parked. -/
def handing : Scene n where
  seat q := if far v q < far v g then endedAs ring v q else if q = g then .granted ring q else .parked ring q
  owner q := if far v q + 1 < far v g then none else if q = g + 1 then some g else some q
  line q := if far v q < far v g then [] else if q = v + 1 then [] else [q - 1]
  holding := n + 1
  tasks := n + 1 - far v g
  runnable := 1
  queue := [g]
  frames := frames + 2 * (n + 1)

/-- All tasks have ended. -/
def ending : Scene n where
  seat := endedAs ring v
  owner _ := none
  line _ := []
  holding := n + 1
  tasks := 0
  runnable := 0
  queue := []
  frames := frames + 2 * (n + 1)

end

theorem far_inj (same : far v p = far v q) : p = q := sub_right_injective (Fin.ext same)

theorem far_succ (differs : q ≠ v) : far v (q + 1) + 1 = far v q := nearer differs

theorem far_pos (differs : q ≠ v) : 0 < far v q := by
  have near := far_succ differs
  omega

theorem far_lt (v q : Fin (n + 1)) : far v q < n + 1 := (v - q).isLt

/-- A task ends that has both of its resources, and hands its first one to the task behind it. -/
theorem handsOn {g : Fin (n + 1)} (behind : x + 1 = g) (other : g ≠ v) (other' : x ≠ v) :
    Leads ring (handing ring frames v g) ⟨.drain ring.scheduler runs next, stack⟩ []
      (handing ring frames v x) ⟨.drain ring.scheduler (runs + 1) next, stack⟩ := by
  have away : far v x = far v g + 1 := by rw [← far_succ other', behind]
  have near := far_succ other
  have bound := far_lt v g
  have differs : x ≠ g := fun same => by simp [same] at away
  have moves : g ≠ g + 1 := fun same => by rw [← same] at near; omega
  have here : handing ring frames v g = { handing ring frames v g with queue := [g] }.set g (.granted ring g) := by
    apply Scene.ext' <;> intros <;> simp [handing, Scene.seat_set]
    intro same
    simp [same]
  let held : Scene n := { handing ring frames v g with
    queue := [], owner := Function.update (handing ring frames v g).owner (g + 1) none }
  have parked : held.set x (.parked ring x) = held := by
    apply Scene.ext' <;> intros <;> simp [held, handing, Scene.seat_set]
    intro same
    simp [same, away, differs]
  have there : (({ held with
      owner := Function.update held.owner g (some x), line := Function.update held.line g [],
      tasks := held.tasks - 1, queue := [] ++ [x] } : Scene n).set x (.granted ring x)).set g
        (.ended ring g (resultOf none) (some (ring.frame .guard g))) = handing ring frames v x := by
    -- Only the task that ends comes nearer to the victim than the one that is woken.
    have closer : ∀ q, q ≠ g → (far v q < far v x ↔ far v q < far v g) := fun q apart => by
      have unequal : far v q ≠ far v g := fun same => apart (far_inj same)
      omega
    have closer' : ∀ q, q ≠ g + 1 → (far v q + 1 < far v x ↔ far v q + 1 < far v g) := fun q apart => by
      have unequal : far v q ≠ far v (g + 1) := fun same => apart (far_inj same)
      omega
    apply Scene.ext' <;> intros <;> simp [held, handing, Scene.seat_set, Function.update_apply]
    case seat q =>
      by_cases mine : q = g
      · simp [mine, endedAs, other, resultOf, away]
      · by_cases woken : q = x
        · simp [woken, differs]
        · simp [mine, woken, closer q mine]
    case owner q =>
      rw [behind]
      by_cases mine : q = g
      · simp [mine, away]
      · by_cases freed : q = g + 1
        · have nearer : far v (g + 1) + 1 < far v x := by omega
          simp [freed, moves.symm, nearer]
        · simp [mine, freed, closer' q freed]
    case line q =>
      by_cases mine : q = g
      · simp [mine, away]
      · simp [mine, closer q mine]
    case tasks =>
      rw [away]
      omega
  rw [here, ← there]
  refine .silent (goesOn (handing ring frames v g) (by simp [handing]; omega) (by simp [handing]; omega)) ?_
  have ends := @endsHanding n ring held g x (.drain ring.scheduler (runs + 1) next) stack none
    (some (ring.frame .guard g)) ?_ differs ?_ ?_ le_rfl
  · rwa [parked] at ends
  · simp [held, handing, moves]
  · simp [held, handing, other', ← behind]
  · show (1 : Int) ≤ n + 1 - far v g
    omega

/-- The task in front of the victim ends as the last one. -/
theorem handsLast (other : v + 1 ≠ v) :
    Leads ring (handing ring frames v (v + 1)) ⟨.drain ring.scheduler runs next, stack⟩ []
      (ending ring frames v) ⟨.drain ring.scheduler (runs + 1) next, stack⟩ := by
  have away : far v (v + 1) = n := farthest v
  have near := far_succ other
  have moves : v + 1 ≠ v + 1 + 1 := fun same => by rw [← same] at near; omega
  have here : handing ring frames v (v + 1) =
      { handing ring frames v (v + 1) with queue := [v + 1] }.set (v + 1) (.granted ring (v + 1)) := by
    apply Scene.ext' <;> intros <;> simp [handing, Scene.seat_set]
    intro same
    simp [same]
  let held : Scene n := { handing ring frames v (v + 1) with
    queue := [], owner := Function.update (handing ring frames v (v + 1)).owner (v + 1 + 1) none }
  have there : ({ held with
      owner := Function.update held.owner (v + 1) none, tasks := held.tasks - 1,
      runnable := held.runnable - 1 } : Scene n).set (v + 1)
        (.ended ring (v + 1) (resultOf none) (some (ring.frame .guard (v + 1)))) = ending ring frames v := by
    -- All others are nearer to the victim.
    have closer : ∀ q, q ≠ v + 1 → far v q < n := fun q apart => by
      have unequal : far v q ≠ far v (v + 1) := fun same => apart (far_inj same)
      have bound := far_lt v q
      omega
    have closer' : ∀ q, q ≠ v + 1 → q ≠ v + 1 + 1 → far v q + 1 < n := fun q apart apart' => by
      have unequal : far v q ≠ far v (v + 1 + 1) := fun same => apart' (far_inj same)
      have bound := closer q apart
      omega
    apply Scene.ext' <;> intros <;>
      simp [held, handing, ending, Scene.seat_set, Function.update_apply, away]
    case seat q =>
      by_cases mine : q = v + 1
      · simp [mine, endedAs, other, resultOf]
      · simp [mine, closer q mine]
    case owner q =>
      intro mine freed few
      have near := closer' q mine freed
      omega
    case line q =>
      intro few
      by_contra apart
      have near := closer q apart
      omega
  rw [here, ← there]
  refine .silent (goesOn (handing ring frames v (v + 1)) (by simp [handing]; omega)
    (by simp [handing]; omega)) ?_
  refine endsLast none (some (ring.frame .guard (v + 1))) ?_ ?_ ?_ ?_
  · simp [handing, moves]
  · simp [handing]
  · show (1 : Int) ≤ n + 1 - far v (v + 1)
    omega
  · exact le_rfl

/-- All tasks end, one after the other around the ring. -/
theorem handsAll (d : Nat) : ∀ (g : Fin (n + 1)) (runs : Nat), g ≠ v → far v g + d = n →
    Leads ring (handing ring frames v g) ⟨.drain ring.scheduler runs next, stack⟩ []
      (ending ring frames v) ⟨.drain ring.scheduler (runs + d + 1) next, stack⟩ := by
  -- The induction is on the number of tasks that are still parked.
  induction d with
  | zero =>
    intro g runs other away
    obtain rfl : g = v + 1 := far_inj (away.trans (farthest v).symm)
    exact handsLast other
  | succ d inductionHypothesis =>
    intro g runs other away
    have behind : g - 1 + 1 = g := sub_add_cancel g 1
    have other' : g - 1 ≠ v := fun same => by
      have farthest : far v (v + 1) = n := farthest v
      rw [← same, behind, same] at farthest
      omega
    have further : far v (g - 1) = far v g + 1 := by rw [← far_succ other', behind]
    have rest := inductionHypothesis (g - 1) (runs + 1) other' (by omega)
    rw [Nat.add_right_comm runs 1 d] at rest
    exact (handsOn behind other other').silent rest

/-! ## The last request -/

theorem length_of_all {order : List (Fin (n + 1))} (distinct : order.Nodup) (all : ∀ q, q ∈ order) :
    order.length = n + 1 := by
  have card := List.toFinset_card_of_nodup distinct
  rw [Finset.eq_univ_of_forall fun q => List.mem_toFinset.2 (all q), Finset.card_univ, Fintype.card_fin] at card
  exact card.symm

/-- The victim gives up its first resource and ends; then the others end as well. -/
theorem victimEnds {asked : List (Fin (n + 1))} (absent : v ∉ asked) (others : ∀ q, q ≠ v → q ∈ asked)
    (length : asked.length = n) :
    Leads ring
      ({ asking ring frames asked [] with runnable := 1, frames := frames + 2 * asked.length + 2 }.set v
        (.asking ring v (runner ring v .entry (some (.deadlock (refusal ring v)))) .released none))
      ⟨.trampoline (ring.task v) (.drain ring.scheduler runs next), stack⟩ [] (ending ring frames v)
      ⟨.drain ring.scheduler (runs + n) next, stack⟩ := by
  let scene : Scene n :=
    { asking ring frames asked [] with runnable := 1, frames := frames + 2 * asked.length + 2 }
  rcases Nat.eq_zero_or_pos n with rfl | several
  · -- The victim is alone.
    have only : ∀ q, q = v := fun q => Fin.ext (by omega)
    have there : ({ scene with
        owner := Function.update scene.owner v none, tasks := scene.tasks - 1,
        runnable := scene.runnable - 1 } : Scene 0).set v
          (.ended ring v (.error (.deadlock (refusal ring v))) none) = ending ring frames v := by
      apply Scene.ext' <;> intros <;>
        simp [scene, asking, ending, endedAs, only, absent, length]
    rw [← there]
    refine endsLast (some (.deadlock (refusal ring v))) none rfl ?_ ?_ ?_
    · simp [asking, only, absent]
    · simp [asking]
    · exact le_rfl
  · have other : v - 1 ≠ v := fun same => by
      have farthest : far v (v + 1) = n := farthest v
      rw [← sub_eq_iff_eq_add.1 same, far, sub_self] at farthest
      exact several.ne farthest
    have behind : v - 1 + 1 = v := sub_add_cancel v 1
    have nearest : far v (v - 1) = 1 := by
      rw [← far_succ other, behind, far, sub_self]
      rfl
    have here : scene.set (v - 1) (.parked ring (v - 1)) = scene := by
      apply Scene.ext' <;> intros <;> simp [scene, asking, Scene.seat_set]
      intro same
      simp [same, others _ other]
    have there : (({ scene with
        owner := Function.update scene.owner v (some (v - 1)), line := Function.update scene.line v [],
        tasks := scene.tasks - 1, queue := [] ++ [v - 1] } : Scene n).set (v - 1) (.granted ring (v - 1))).set v
          (.ended ring v (.error (.deadlock (refusal ring v))) none) = handing ring frames v (v - 1) := by
      have ahead : ∀ q, q ≠ v → ¬ far v q < 1 := fun q apart => Nat.not_lt.2 (far_pos apart)
      have here : far v v = 0 := by simp [far]
      apply Scene.ext' <;> intros <;>
        simp [scene, asking, handing, Scene.seat_set, Function.update_apply, nearest, behind, length]
      case seat q =>
        by_cases mine : q = v
        · simp [mine, here, endedAs]
        · by_cases woken : q = v - 1
          · simp [woken, other, nearest]
          · simp [mine, woken, (far_pos mine).ne', others q mine]
      case line q =>
        by_cases mine : q = v
        · simp [mine, here]
        · by_cases first : q = v + 1
          · simp [first, absent]
          · have waits : q - 1 ∈ asked := others _ fun same => first (sub_eq_iff_eq_add.1 same)
            simp [mine, first, waits, (far_pos mine).ne']
      case frames => omega
    have ends := @endsHanding n ring scene v (v - 1) (.drain ring.scheduler runs next) stack
      (some (.deadlock (refusal ring v))) none rfl other ?_ ?_ le_rfl
    · rw [here] at ends
      have rest := @handsAll n ring v frames stack next (n - 1) (v - 1) runs other (by omega)
      rw [Nat.add_assoc, Nat.sub_add_cancel several, ← there] at rest
      exact ends.silent rest
    · simp [scene, asking, others _ other]
    · show (1 : Int) ≤ n + 1
      omega

/-- The last task to ask for its second resource is refused, and ends; then the others end as well. -/
theorem refusedLast {asked : List (Fin (n + 1))} (numbered : Numbered ring frames (asked ++ [v]))
    (distinct : (asked ++ [v]).Nodup) (all : ∀ q, q ∈ asked ++ [v]) :
    Leads ring
      ({ asking ring frames asked [] with runnable := 1 }.set v (.inBody ring v (runner ring v .body none) 1))
      ⟨.code (decides ring v (n + 1)), .frame (ring.task v) (ring.frame .body v)
        (.drain ring.scheduler runs next) :: stack⟩
      [(ring.task v, ring.resource (v + 1))] (ending ring frames v)
      ⟨.drain ring.scheduler (runs + n) next, stack⟩ := by
  have absent : v ∉ asked := fun member => (List.disjoint_of_nodup_append distinct) member (by simp)
  have others : ∀ q, q ≠ v → q ∈ asked := fun q other => by simpa [other] using all q
  have length : asked.length = n := by simpa using length_of_all distinct all
  refine .silent (asks (by omega) (numbered.inner rfl) (numbered.guard rfl)) ?_
  refine .quiet (fails (by simp [asking]) fun st shows =>
    (circled_asking absent (fun _ => rfl) rfl rfl).refused shows others) ?_
  exact victimEnds absent others length

/-! ## The whole run -/

/-- The last of the tasks to be started takes its first resource, and finds that all others hold one. -/
theorem meetsLast {rest : List (Fin (n + 1))} (distinct : (p :: rest).Nodup) (all : ∀ q, q ∈ p :: rest) :
    Leads ring (meeting ring frames rest [p]) ⟨.drain ring.scheduler runs next, stack⟩
      [(ring.task p, ring.resource p)]
      ({ asking ring frames [] rest with runnable := rest.length + 1 }.set p
        (.inBody ring p (runner ring p .body none) 1))
      ⟨.code (decides ring p (n + 1)), .frame (ring.task p) (ring.frame .body p)
        (.drain ring.scheduler (runs + 1) next) :: stack⟩ := by
  have absent : p ∉ rest := (List.nodup_cons.1 distinct).1
  have length : rest.length = n := by simpa using length_of_all distinct all
  have here : meeting ring frames rest [p] =
      { meeting ring frames rest [] with queue := p :: rest }.set p (.fresh ring p) := by
    apply Scene.ext' <;> intros <;> simp [meeting, Scene.seat_set]
    intro same
    simp [same, absent]
  have there : ({ meeting ring frames rest [] with
      queue := rest, owner := Function.update (meeting ring frames rest []).owner p (some p),
      holding := rest.length + 1 } : Scene n).set p (.inBody ring p (runner ring p .body none) 1) =
        { asking ring frames [] rest with runnable := rest.length + 1 }.set p
          (.inBody ring p (runner ring p .body none) 1) := by
    have others : ∀ q, q ≠ p → q ∈ rest := fun q other => by simpa [other] using all q
    apply Scene.ext' <;> intros <;> simp [meeting, asking, Scene.seat_set, Function.update_apply, length]
    case seat q =>
      by_cases mine : q = p
      · simp [mine]
      · simp [mine, others q mine]
    case owner q =>
      by_cases mine : q = p
      · simp [mine]
      · simp [mine, others q mine]
  rw [here, ← there]
  have comes := @comes n ring p rest stack next runs (meeting ring frames rest []) (by simp [meeting, absent])
  have held : decides ring p ((meeting ring frames rest []).holding + 1) = decides ring p (n + 1) :=
    congrArg (fun holding => decides ring p (holding + 1)) length
  rwa [held] at comes

/-- The last task to ask for its second resource looks again, and then asks. -/
theorem refusedBehind {asked : List (Fin (n + 1))} (numbered : Numbered ring frames (asked ++ [v]))
    (distinct : (asked ++ [v]).Nodup) (all : ∀ q, q ∈ asked ++ [v]) :
    Leads ring (asking ring frames asked [v]) ⟨.drain ring.scheduler runs next, stack⟩
      [(ring.task v, ring.resource (v + 1))] (ending ring frames v)
      ⟨.drain ring.scheduler (runs + 1 + n) next, stack⟩ := by
  have absent : v ∉ asked := fun member => (List.disjoint_of_nodup_append distinct) member (by simp)
  have here : asking ring frames asked [v] =
      { asking ring frames asked [] with runnable := 1, queue := [v] }.set v (.met ring v) := by
    apply Scene.ext' <;> intros <;> simp [asking, Scene.seat_set]
    intro same
    simp [same, absent]
  rw [here]
  exact .silent (comesBack { asking ring frames asked [] with runnable := 1 })
    (refusedLast numbered distinct all)

/-- All requests are made, and all tasks end. -/
theorem goesRound {order asked : List (Fin (n + 1))} (last : order = asked ++ [v])
    (numbered : Numbered ring frames order) (distinct : order.Nodup) (all : ∀ q, q ∈ order) :
    Leads ring (meeting ring frames [] (order.rotate 1)) ⟨.drain ring.scheduler 0 next, stack⟩
      ((order.rotate 1).map (fun p => (ring.task p, ring.resource p)) ++
        order.map fun p => (ring.task p, ring.resource (p + 1)))
      (ending ring frames v) ⟨.code (next (3 * n + 1)), stack⟩ := by
  subst last
  have length := length_of_all distinct all
  refine .quiet ?_ (leads_drained rfl)
  cases asked with
  | nil =>
    obtain rfl : n = 0 := by simpa using length.symm
    rw [List.nil_append, List.rotate_cons_succ, List.rotate_zero]
    exact (meetsLast distinct all).trans (refusedLast numbered distinct all)
  | cons p rest =>
    obtain ⟨r, others, behind⟩ : ∃ r others, rest ++ [v] = r :: others := by
      cases rest with
      | nil => exact ⟨v, [], rfl⟩
      | cons r rest => exact ⟨r, rest ++ [v], rfl⟩
    have several : rest.length + 1 = n := by simpa using length
    have first := @meets n ring frames stack next p (rest ++ [v]) [] 0 (List.nodup_cons.1 distinct).2 (by simp; omega)
    have second := @meetsLast n ring p frames stack next (0 + (rest ++ [v]).length) (rest ++ [v]) distinct all
    have third : Leads ring
        ({ asking ring frames [] (rest ++ [v]) with runnable := (rest ++ [v]).length + 1 }.set p
          (.inBody ring p (runner ring p .body none) 1))
        ⟨.code (decides ring p (n + 1)), .frame (ring.task p) (ring.frame .body p)
          (.drain ring.scheduler (0 + (rest ++ [v]).length + 1) next) :: stack⟩
        [(ring.task p, ring.resource (p + 1))] (asking ring frames [p] (rest ++ [v]))
        ⟨.drain ring.scheduler (0 + (rest ++ [v]).length + 1) next, stack⟩ := by
      rw [List.cons_append, behind] at numbered distinct
      rw [behind]
      exact @askedFor n ring p frames _ stack [] others r numbered distinct
    have fourth := @asksAll n ring frames stack next v rest [p] (0 + (rest ++ [v]).length + 1) numbered distinct
    have fifth := @refusedBehind n ring v frames stack next (0 + (rest ++ [v]).length + 1 + rest.length) (p :: rest)
      numbered distinct all
    have whole := first.trans (second.trans (third.trans (fourth.trans fifth)))
    have count : 0 + (rest ++ [v]).length + 1 + rest.length + 1 + n = 3 * n + 1 := by
      simp only [List.length_append, List.length_singleton]
      omega
    rw [count] at whole
    rw [List.cons_append, List.rotate_cons_succ, List.rotate_zero]
    simpa using whole

end Tasking.Scenario.Ring
