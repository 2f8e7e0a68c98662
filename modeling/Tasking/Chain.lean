import Tasking.State

/-! # Chains of frames

The frames of a task form a chain: from the top frame to its caller, that frame's caller,
and so on to the root.  `attach` is the only operation that changes a caller, and it
refuses to make a frame its own caller through others.  Chains are therefore never longer
than there are frames, which bounds the walk in `chain`.
-/

namespace Tasking.State

variable {V C : Type}

/-- At most `bound` frames from `f` downwards, each followed by its caller. -/
def chainUpTo (st : State V C) : Nat → FrameId → List FrameId
  | 0, _ => []
  | bound + 1, f =>
    f :: match (st.frames.get? f).bind Frame.caller with
      | some caller => st.chainUpTo bound caller
      | none => []

/-- The frames from `f` down to its root. -/
def chain (st : State V C) (f : FrameId) : List FrameId :=
  st.chainUpTo st.frames.size f

/-- The frames of a task, from its top down. -/
def chainOf (st : State V C) (top : Option FrameId) : List FrameId :=
  top.elim [] st.chain

/-- Whether a frame is among the first `bound` frames from `g` downwards. -/
def isOnChainUpTo (st : State V C) (f : FrameId) : Nat → FrameId → Bool
  | 0, _ => false
  | bound + 1, g =>
    if g = f then
      true
    else
      match (st.frames.get? g).bind Frame.caller with
      | some caller => st.isOnChainUpTo f bound caller
      | none => false

theorem isOnChainUpTo_iff (st : State V C) (f : FrameId) (bound : Nat) (g : FrameId) :
    st.isOnChainUpTo f bound g = true ↔ f ∈ st.chainUpTo bound g := by
  induction bound generalizing g with
  | zero => simp [isOnChainUpTo, chainUpTo]
  | succ bound ih =>
    rw [isOnChainUpTo, chainUpTo, List.mem_cons]
    by_cases h : g = f
    · simp [h]
    · rw [if_neg h]
      cases (st.frames.get? g).bind Frame.caller with
      | none => simp [Ne.symm h]
      | some caller => simp [ih, Ne.symm h]

/-- Whether a frame is among a caller and the frames below it.  This walks the chain without
    listing it. -/
def isOnChain (st : State V C) (f : FrameId) : Option FrameId → Bool
  | none => false
  | some caller => st.isOnChainUpTo f st.frames.size caller

theorem isOnChain_iff (st : State V C) (f : FrameId) (caller : Option FrameId) :
    st.isOnChain f caller = true ↔ f ∈ st.chainOf caller := by
  cases caller with
  | none => simp [isOnChain, chainOf]
  | some caller => exact st.isOnChainUpTo_iff f st.frames.size caller

/-- What can be seen of a frame. -/
def frameView (st : State V C) (f : FrameId) : Attempt V C Frame.View := do
  let frame ← st.frame f
  pure ⟨frame.label, frame.caller, (st.chain f).length⟩

/-- Set the caller of a frame.  The frame must not be among the caller and the frames below
    it. -/
def attach (st : State V C) (f : FrameId) (caller : Option FrameId) :
    Attempt V C (State V C) := do
  let _ ← st.frame f
  if st.isOnChain f caller then st.fail .attachedBelowItself
  pure (st.modifyFrame f fun frame => { frame with caller := caller })

/-- Make a frame the top of a task's chain. -/
def pause (st : State V C) (t : TaskId) (f : FrameId) : Attempt V C (State V C) := do
  let _ ← st.task t
  pure (st.modifyTask t fun task => { task with top := some f })

/-- The frames of a task above a target, from the top down; `none` if the target is not on
    the chain. -/
def framesAbove (st : State V C) (top : Option FrameId) (target : FrameId) :
    Option (List FrameId) :=
  let chain := st.chainOf top
  if target ∈ chain then some (chain.takeWhile (· ≠ target)) else none

end Tasking.State
