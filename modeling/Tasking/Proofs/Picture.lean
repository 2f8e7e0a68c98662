import Tasking.Proofs.Callers

/-! # Chains and guards at a glance

A `Picture` is what chains and ownership are about: who calls whom, how far each guard has come,
the tops of the chains, owners and waiters, and where the run of each task is.

While a task runs, its chain is not always what its top leads to.  A frame that put a
continuation in its place still runs, and an unwind works on the frames that it found first,
whatever cancelled frames put on top meanwhile.  `Picture.base` is where the part of the chain
begins that still counts.

`Picture.Woven` says that chains are as they should be: no frame is on two of them.
`Picture.Warded` says who holds what: a resource is owned by a task exactly if one guard on
the task's chain holds it.
-/

namespace Tasking

/-- Where the run of a task is. -/
inductive Stage where
  /-- Its top frame is to be resumed next. -/
  | next
  /-- The code of a frame runs that was its top frame. -/
  | inside (f : FrameId)
  /-- A frame above the target runs with the error of an unwind, and the frames `doomed` are
      still to be cancelled. -/
  | unwinding (doomed : List FrameId) (target : FrameId)
  deriving DecidableEq

/-- Chains, guards and owners. -/
structure Picture (V : Type) where
  known : FrameId → Prop
  caller : FrameId → Option FrameId
  guard : FrameId → Option (ResourceId × Phase V)
  top : TaskId → Option FrameId
  owner : ResourceId → Option TaskId
  waiters : ResourceId → List TaskId
  stage : TaskId → Option Stage

/-- The picture of a state in which the runs of the tasks are at the given stages. -/
def State.picture {V C : Type} (st : State V C) (stage : TaskId → Option Stage) : Picture V where
  known f := (st.frames.get? f).isSome = true
  caller := st.caller
  guard := st.guard?
  top := st.top
  owner := st.owner
  waiters := st.waiters
  stage := stage

namespace Picture

variable {V : Type}

/-- Where the part of a task's chain begins that its run has not cancelled. -/
def base (p : Picture V) (t : TaskId) : Option FrameId :=
  match p.stage t with
  | some (.unwinding doomed target) => (doomed ++ [target]).head?
  | _ => p.top t

/-- A frame is on the part of a task's chain that its run has not cancelled. -/
def OnChain (p : Picture V) (t : TaskId) (f : FrameId) : Prop :=
  ∃ b, p.base t = some b ∧ Reaches p.caller b f

/-- A frame is on a task's chain or runs for the task. -/
def Uses (p : Picture V) (t : TaskId) (f : FrameId) : Prop :=
  p.OnChain t f ∨ p.stage t = some (.inside f)

/-- A frame may be put on a chain: no task uses it, and if it is a guard, it has not been
    resumed yet. -/
structure Idle (p : Picture V) (f : FrameId) : Prop where
  known : p.known f
  unused : ∀ t, ¬ p.Uses t f
  unresumed : ∀ {r phase}, p.guard f = some (r, phase) → ∃ body, phase = .start body

/-- Frames are on one chain at most, once, and the run of a task is at a place on its chain. -/
structure Woven (p : Picture V) : Prop where
  acyclic : Acyclic p.caller
  caller_known : ∀ {f c}, p.caller f = some c → p.known c
  top_known : ∀ {t f}, p.top t = some f → p.known f
  apart : ∀ {t u f}, p.Uses t f → p.Uses u f → t = u
  inside : ∀ {t f}, p.stage t = some (.inside f) → p.known f ∧
    ∃ g, p.top t = some g ∧ (g = f ∨ p.caller g = some f ∨ p.caller g = p.caller f)
  path : ∀ {t doomed target}, p.stage t = some (.unwinding doomed target) →
    (doomed ++ [target]).IsChain (fun f g => p.caller f = some g) ∧ p.known target

variable {p : Picture V}

theorem base_of_top {t : TaskId} (running : ∀ doomed target,
    p.stage t ≠ some (.unwinding doomed target)) : p.base t = p.top t := by
  unfold base
  split
  · next doomed target stage => exact absurd stage (running doomed target)
  · rfl

theorem base_inside {t : TaskId} {f : FrameId} (stage : p.stage t = some (.inside f)) :
    p.base t = p.top t := base_of_top (by simp [stage])

theorem base_next {t : TaskId} (stage : p.stage t = some .next) : p.base t = p.top t :=
  base_of_top (by simp [stage])

theorem base_idle {t : TaskId} (stage : p.stage t = none) : p.base t = p.top t :=
  base_of_top (by simp [stage])

theorem OnChain.of_base {t : TaskId} {f : FrameId} (base : p.base t = some f) : p.OnChain t f :=
  ⟨f, base, .refl⟩

theorem OnChain.caller {t : TaskId} {f g : FrameId} (on : p.OnChain t f)
    (link : p.caller f = some g) : p.OnChain t g := by
  obtain ⟨b, base, way⟩ := on
  exact ⟨b, base, way.tail link⟩

/-- The caller of a running frame is on the chain, even if the frame itself is not any more. -/
theorem Woven.onChain_caller (woven : p.Woven) {t : TaskId} {f c : FrameId}
    (stage : p.stage t = some (.inside f)) (link : p.caller f = some c) : p.OnChain t c := by
  obtain ⟨_, g, top, place⟩ := woven.inside stage
  have on : p.OnChain t g := .of_base ((base_inside stage).trans top)
  rcases place with rfl | above | beside
  · exact on.caller link
  · exact (on.caller above).caller link
  · exact on.caller (beside.trans link)

/-- Whatever a task uses returns to a frame on its chain. -/
theorem Woven.uses_caller (woven : p.Woven) {t : TaskId} {f c : FrameId} (uses : p.Uses t f)
    (link : p.caller f = some c) : p.OnChain t c :=
  uses.elim (fun on => on.caller link) fun stage => woven.onChain_caller stage link

/-- Everything on a chain exists. -/
theorem Woven.known_of_reaches (woven : p.Woven) {f g : FrameId} (known : p.known f)
    (way : Reaches p.caller f g) : p.known g := by
  rcases way.cases_last with rfl | ⟨h, _, link⟩
  · exact known
  · exact woven.caller_known link

/-! ## Moving along a chain -/

/-- The picture after a task's run went to another place. -/
def move (p : Picture V) (t : TaskId) (top : Option FrameId) (stage : Option Stage) : Picture V :=
  { p with top := Function.update p.top t top, stage := Function.update p.stage t stage }

theorem base_move_ne {t u : TaskId} (other : u ≠ t) (top : Option FrameId)
    (stage : Option Stage) : (p.move t top stage).base u = p.base u := by
  simp [move, base, other]

theorem onChain_move_ne {t u : TaskId} (other : u ≠ t) (top : Option FrameId)
    (stage : Option Stage) (f : FrameId) : (p.move t top stage).OnChain u f ↔ p.OnChain u f := by
  unfold OnChain
  rw [base_move_ne other]
  rfl

theorem uses_move_ne {t u : TaskId} (other : u ≠ t) (top : Option FrameId)
    (stage : Option Stage) (f : FrameId) : (p.move t top stage).Uses u f ↔ p.Uses u f := by
  unfold Uses
  rw [onChain_move_ne other]
  simp [move, other]

@[simp] theorem move_move (p : Picture V) (t : TaskId) (top top' : Option FrameId)
    (stage stage' : Option Stage) : (p.move t top stage).move t top' stage' = p.move t top' stage' := by
  simp [move]

/-- A run may go to any place from which it uses, besides what it used, only idle frames. -/
theorem Woven.move (woven : p.Woven) {t : TaskId} {top : Option FrameId} {stage : Option Stage}
    (uses : ∀ f, (p.move t top stage).Uses t f → p.Uses t f ∨ p.Idle f)
    (known : ∀ f, top = some f → p.known f)
    (inside : ∀ f, stage = some (.inside f) → p.known f ∧
      ∃ g, top = some g ∧ (g = f ∨ p.caller g = some f ∨ p.caller g = p.caller f))
    (path : ∀ doomed target, stage = some (.unwinding doomed target) →
      (doomed ++ [target]).IsChain (fun f g => p.caller f = some g) ∧ p.known target) :
    (p.move t top stage).Woven where
  acyclic := woven.acyclic
  caller_known := woven.caller_known
  top_known {u f} found := by
    by_cases same : u = t
    · subst same
      exact known f (by simpa [Picture.move] using found)
    · exact woven.top_known (t := u) (by simpa [Picture.move, same] using found)
  apart {u v f} first second := by
    by_cases same : u = t
    · subst same
      by_cases same' : v = u
      · exact same'.symm
      · have old := (uses_move_ne same' top stage f).1 second
        rcases uses f first with mine | idle
        · exact woven.apart mine old
        · exact absurd old (idle.unused v)
    · have old := (uses_move_ne same top stage f).1 first
      by_cases same' : v = t
      · subst same'
        rcases uses f second with mine | idle
        · exact woven.apart old mine
        · exact absurd old (idle.unused u)
      · exact woven.apart old ((uses_move_ne same' top stage f).1 second)
  inside {u f} found := by
    by_cases same : u = t
    · subst same
      simpa [Picture.move] using inside f (by simpa [Picture.move] using found)
    · simpa [Picture.move, same] using
        woven.inside (t := u) (by simpa [Picture.move, same] using found)
  path {u doomed target} found := by
    by_cases same : u = t
    · subst same
      exact path doomed target (by simpa [Picture.move] using found)
    · exact woven.path (t := u) (by simpa [Picture.move, same] using found)

end Picture

end Tasking
