import Tasking.Proofs.Halting.Wear

/-! # Operations that leave all frames alone

What an operation did before it met a fault stays done.  `Gives good left x` speaks of both ends of `x`: what it
delivers is good, or the state in which a fault leaves the runtime is as it should be.

Waking, parking, starting, ending and counting tasks, and handing resources over, change no frame, whichever way
they end.
-/

namespace Tasking

variable {V C : Type}

/-- What the attempt delivers is good, or the state in which it ends by a fault is as it should be. -/
def Gives {α : Type} (good : α → Prop) (left : State V C → Prop) : Attempt V C α → Prop
  | .ok a => good a
  | .error crash => left crash.state

namespace Gives

variable {α β : Type} {st : State V C} {good good' : α → Prop} {mid : β → Prop} {left left' : State V C → Prop}

theorem pure {a : α} (holds : good a) : Gives good left (Pure.pure a : Attempt V C α) := holds

theorem fail {fault : Fault} (holds : left st) : Gives good left (st.fail fault : Attempt V C α) := holds

theorem mono {x : Attempt V C α} (gives : Gives good left x) (better : ∀ a, good a → good' a)
    (also : ∀ st, left st → left' st) : Gives good' left' x := by
  cases x with
  | ok a => exact better a gives
  | error crash => exact also crash.state gives

theorem bind {x : Attempt V C β} {f : β → Attempt V C α} (first : Gives mid left x)
    (rest : ∀ b, mid b → Gives good left (f b)) : Gives good left (x >>= f) := by
  cases x with
  | ok b => exact rest b first
  | error crash => exact first

/-- What was delivered, together with where it came from. -/
theorem traced {x : Attempt V C α} (gives : Gives good left x) : Gives (fun a => x = .ok a ∧ good a) left x := by
  cases x with
  | ok a => exact ⟨rfl, gives⟩
  | error crash => exact gives

/-- A look-up changes nothing. -/
theorem find {kind : Kind} {table : Table kind β} {i : Id kind} {f : β → Attempt V C α} (holds : left st)
    (rest : ∀ b, table.get? i = some b → Gives good left (f b)) : Gives good left (st.find table i >>= f) := by
  unfold State.find
  cases found : table.get? i with
  | none => exact holds
  | some b => exact rest b found

theorem check {p : Prop} [Decidable p] {fault : Fault} {unreached : β → Attempt V C α} {rest : Attempt V C α}
    (holds : left st) (passed : ¬ p → Gives good left rest) :
    Gives good left (if p then st.fail fault >>= unreached else rest) := by
  split
  · exact holds
  · next fails => exact passed fails

theorem guard {p : Prop} [Decidable p] {fault : Fault} {rest : Attempt V C α} (holds : left st)
    (passed : ¬ p → Gives good left rest) : Gives good left (if p then st.fail fault else rest) := by
  split
  · exact holds
  · next fails => exact passed fails

theorem ite {p : Prop} [Decidable p] {x y : Attempt V C α} (yes : p → Gives good left x)
    (no : ¬ p → Gives good left y) : Gives good left (if p then x else y) := by
  split
  · next holds => exact yes holds
  · next fails => exact no fails

end Gives

namespace State

variable {st : State V C} {frames : Table .frame (Frame V (Body V C))} {t child : TaskId} {s : SchedulerId}
  {r : ResourceId}

/-- The frames are these. -/
def Framed (frames : Table .frame (Frame V (Body V C))) (st : State V C) : Prop := st.frames = frames

namespace Framed

theorem adjust {c : Counter} {change : Int} (framed : Framed frames st) :
    Gives (Framed frames) (Framed frames) (st.adjust s c change) :=
  .find framed fun _ _ => .check framed fun _ => .pure framed

theorem claimLink (framed : Framed frames st) : Gives (Framed frames) (Framed frames) (st.claimLink t) :=
  .find framed fun _ _ => .check framed fun _ => .pure framed

theorem schedule (framed : Framed frames st) : Gives (Framed frames) (Framed frames) (st.schedule t) :=
  .find framed fun _ _ => .ite (fun _ => .pure framed) fun _ =>
    framed.claimLink.bind fun _ framed => .pure framed

theorem finishWait (framed : Framed frames st) : Gives (Framed frames) (Framed frames) (st.finishWait t) :=
  .find framed fun _ _ => .ite (fun _ => adjust framed) fun _ => .pure framed

theorem advance {source target : Life} (framed : Framed frames st) :
    Gives (Framed frames) (Framed frames) (st.advance t source target) :=
  .find framed fun _ _ => .check framed fun _ => .pure framed

theorem start (framed : Framed frames st) : Gives (Framed frames) (Framed frames) (st.start t) :=
  .find framed fun _ _ => framed.advance.bind fun _ framed =>
    framed.adjust.bind fun _ framed => framed.schedule

theorem ready (framed : Framed frames st) : Gives (Framed frames) (Framed frames) (st.ready t) := by
  refine .find framed fun task _ => ?_
  split
  · exact Gives.bind (adjust framed) fun _ framed => framed.finishWait.bind fun _ framed => framed.schedule
  · exact finishWait framed
  · exact .fail framed

theorem readyAll {ts : List TaskId} (framed : Framed frames st) :
    Gives (Framed frames) (Framed frames) (st.readyAll ts) := by
  induction ts generalizing st with
  | nil => exact .pure framed
  | cons t rest inductionHypothesis => exact framed.ready.bind fun _ => inductionHypothesis

theorem waitExternal (framed : Framed frames st) : Gives (Framed frames) (Framed frames) (st.waitExternal t) :=
  .find framed fun _ _ => .check framed fun _ => .ite (fun _ => .pure framed) fun _ => adjust framed

theorem yield (framed : Framed frames st) : Gives (Framed frames) (Framed frames) (st.yield t) :=
  .find framed fun _ _ => .check framed fun _ => .pure framed

theorem beginRun {w : Worker} (framed : Framed frames st) :
    Gives (Framed frames) (Framed frames) (st.beginRun t w) :=
  framed.advance.bind fun _ framed => .pure framed

theorem takeReady (framed : Framed frames st) :
    Gives (fun taken => Framed frames taken.2) (Framed frames) (st.takeReady s) := by
  refine .find framed fun scheduler _ => ?_
  split
  · exact .pure framed
  · exact .pure framed

theorem park (framed : Framed frames st) : Gives (Framed frames) (Framed frames) (st.park t) :=
  .find framed fun _ _ => .guard framed fun _ => .ite (fun _ => schedule framed) fun _ =>
    .guard framed fun _ => adjust framed

theorem finish [Inhabited V] {result : Except (Error V) V} (framed : Framed frames st) :
    Gives (Framed frames) (Framed frames) (st.finish t result) :=
  .find framed fun _ _ => .check framed fun _ => Gives.bind (readyAll framed) fun _ framed =>
    .find framed fun _ _ => Gives.bind (adjust framed) fun _ framed => framed.adjust

theorem spawn [Inhabited V] {entry : FrameId} (framed : Framed frames st) :
    Gives (fun done => Framed frames done.2) (Framed frames) (st.spawn s entry) :=
  .find framed fun _ _ => .ite (fun _ => .pure framed) fun _ => .pure framed

theorem spawnBound [Inhabited V] {entry : FrameId} (framed : Framed frames st) :
    Gives (fun done => Framed frames done.2) (Framed frames) (st.spawnBound s entry) := by
  refine .find framed fun scheduler _ => .ite (fun _ => .pure framed) fun _ => ?_
  dsimp only
  split
  · exact .pure framed
  · exact .fail framed
  · exact Gives.bind (start framed) fun _ framed => .pure framed

theorem stop (framed : Framed frames st) : Gives (Framed frames) (Framed frames) (st.stop s) := by
  refine .find framed fun scheduler _ => .pure ?_
  have dropped (ts : List TaskId) {st : State V C} (framed : Framed frames st) : Framed frames (st.dropLinks ts) := by
    induction ts generalizing st with
    | nil => exact framed
    | cons t rest inductionHypothesis => exact @inductionHypothesis (st.dropLink t) framed
  exact dropped _ framed

theorem tryAcquire (framed : Framed frames st) :
    Gives (fun done => Framed frames done.2) (Framed frames) (st.tryAcquire r t) :=
  .find framed fun _ _ => .find framed fun _ _ => .ite (fun _ => .pure framed) fun _ => .pure framed

theorem acquire (framed : Framed frames st) :
    Gives (fun done => Framed frames done.2) (Framed frames) (st.acquire r t) := by
  refine framed.tryAcquire.bind fun (taken, st) framed => .ite (fun _ => .pure framed) fun _ => ?_
  split
  · exact .pure framed
  · have queued : Gives (Framed frames) (Framed frames) ((st.announceWait t (.resource r)).joinQueue r t) :=
      Gives.bind (claimLink framed) fun _ framed => .pure framed
    exact queued.bind fun _ framed => .pure framed

theorem release (framed : Framed frames st) : Gives (Framed frames) (Framed frames) (st.release r t) := by
  refine .find framed fun resource _ => .check framed fun _ => ?_
  split
  · exact .pure framed
  · exact ready framed

theorem waitFor (framed : Framed frames st) :
    Gives (fun done => Framed frames done.2) (Framed frames) (st.waitFor t child) := by
  refine .find framed fun awaited _ => .find framed fun _ _ => ?_
  split
  · exact .pure framed
  · split
    · exact .pure framed
    · exact .pure framed

theorem pause {f : FrameId} (framed : Framed frames st) : Gives (Framed frames) (Framed frames) (st.pause t f) :=
  .find framed fun _ _ => .pure framed

theorem mayOpen {x : ExclusiveId} (framed : Framed frames st) :
    Gives (fun _ => True) (Framed frames) (st.mayOpen x t) :=
  .find framed fun _ _ => .ite (fun _ => .check framed fun _ => .pure trivial) fun _ => .pure trivial

theorem frameView {f : FrameId} (framed : Framed frames st) :
    Gives (fun _ => True) (Framed frames) (st.frameView f) :=
  .find framed fun _ _ => .pure trivial

theorem serve [Inhabited V] {request : Request V C} (framed : Framed frames st) (apart : request.reframes = false) :
    Gives (fun done => Framed frames done.2) (Framed frames) (st.serve request) := by
  cases request with
  | attach | newGuard | newJoin | newMessage => cases apart
  | spawn => exact framed.spawn
  | spawnBound => exact framed.spawnBound
  | waitFor => exact framed.waitFor
  | tryAcquire => exact framed.tryAcquire
  | acquire => exact framed.acquire
  | start => exact framed.start.bind fun _ framed => .pure framed
  | ready => exact framed.ready.bind fun _ framed => .pure framed
  | yield => exact framed.yield.bind fun _ framed => .pure framed
  | waitExternal => exact framed.waitExternal.bind fun _ framed => .pure framed
  | pause => exact framed.pause.bind fun _ framed => .pure framed
  | release => exact framed.release.bind fun _ framed => .pure framed
  | stop => exact framed.stop.bind fun _ framed => .pure framed
  | move => exact .find framed fun _ _ => .ite (fun _ => .pure framed) fun _ => .pure framed
  | frame => exact framed.frameView.bind fun _ _ => .pure framed
  | lookup | nameOf | findNative | registry | task | resource | exclusive | actorState | scheduler | stats | read =>
    exact .find framed fun _ _ => .pure framed
  | intern =>
    refine .find framed fun registry _ => ?_
    split
    · exact .pure framed
    · exact .pure framed
  | newScheduler settings g =>
    simp only [State.serve, addScheduler]
    split
    · exact .pure framed
    · exact .fail framed
    · exact .pure framed
  | newResource | newExclusive | setPayload | newRegistry | closeRegistry | newCell | write | update | findCycle
    | thread => exact .pure framed

end Framed

end State

end Tasking
