import Mathlib.Algebra.BigOperators.Intervals
import Mathlib.Algebra.Order.BigOperators.Group.Finset
import Tasking.Proofs.Touching

/-! # How frames wear out

A guard that has not called its body yet, a join that is not parked and a message that is not delivered will
each go on in that way only so often.  `State.pending` counts how often, for those that concern certain frames,
and no step adds to it unless it is one that names such a frame (`Config.wears_of_step`).  `State.Stirs` lists
what resuming a frame does to frames: if it does not run code that somebody wrote, then something wears out
or the frame passes on what it got.

No step of any program puts a frame below itself.
-/

namespace Tasking

variable {V C : Type}

/-- The frames that a request creates, puts on a chain, or gives to somebody to call. -/
def Request.names (next : FrameId) : Request V C → List FrameId
  | .spawn _ entry | .spawnBound _ entry => [entry]
  | .attach f _ => [f]
  | .newGuard _ body => [next, body]
  | .newJoin _ => [next]
  | .newMessage _ _ => [next, ⟨next.number + 1⟩]
  | _ => []

/-- A request creates frames, or changes a caller. -/
def Request.reframes : Request V C → Bool
  | .attach _ _ | .newGuard _ _ | .newJoin _ | .newMessage _ _ => true
  | _ => false

/-- How often a frame that the runtime made will still move on of its own, if it concerns one of certain
frames: the body of a guard, or else the frame itself. -/
def Frame.Code.pending {B : Type} (among : FrameId → Bool) (f : FrameId) : Frame.Code V B → Nat
  | .guard _ (.start body) => if among body then 2 else 0
  | .guard _ (.waiting body _) => if among body then 1 else 0
  | .join _ false | .message _ _ false => if among f then 1 else 0
  | _ => 0

/-- The frame is finished. -/
def Answer.IsFinal : Answer V → Prop
  | .done _ | .throw _ => True
  | _ => False

/-- What becomes of a guard that has not called its body yet. -/
inductive Phase.Later : Phase V → Phase V → Prop where
  | refused {body : FrameId} : Later (.start body) .released
  | parked {body : FrameId} {value : V} : Later (.start body) (.waiting body value)
  | granted {body : FrameId} : Later (.start body) .held
  | woken {body : FrameId} {value : V} : Later (.waiting body value) .held

namespace State

variable {st st' st'' : State V C} {among : FrameId → Bool} {t : TaskId} {f g : FrameId}

/-- How often a frame will still move on of its own, if it concerns one of certain frames. -/
def pending (st : State V C) (among : FrameId → Bool) (f : FrameId) : Nat :=
  (st.code? f).elim 0 (Frame.Code.pending among f)

/-- No frame gets more to do, none is put below itself, and none of those in question comes into being. -/
structure Wears (among : FrameId → Bool) (st st' : State V C) : Prop where
  acyclic : Acyclic st.caller → Acyclic st'.caller
  pending : ∀ f, st'.pending among f ≤ st.pending among f
  old : ∀ {f}, among f = true → (st'.code? f).isSome = true → (st.code? f).isSome = true

theorem caller_of_frames (same : st'.frames = st.frames) : st'.caller = st.caller := by
  funext f
  rw [caller, same, caller]

theorem code?_funext (same : st'.frames = st.frames) : st'.code? = st.code? :=
  funext fun f => code?_of_frames same f

theorem pending_of_code? (same : st'.code? f = st.code? f) : st'.pending among f = st.pending among f := by
  rw [pending, same, pending]

namespace Wears

@[refl] theorem refl (st : State V C) : Wears among st st := ⟨id, fun _ => le_rfl, fun _ => id⟩

theorem trans (first : Wears among st st') (second : Wears among st' st'') : Wears among st st'' :=
  ⟨second.acyclic ∘ first.acyclic, fun f => (second.pending f).trans (first.pending f),
    fun counts known => first.old counts (second.old counts known)⟩

theorem of_same (callers : Acyclic st.caller → Acyclic st'.caller) (codes : st'.code? = st.code?) :
    Wears among st st' :=
  ⟨callers, fun f => (pending_of_code? (congrFun codes f)).le, fun {f} _ known => congrFun codes f ▸ known⟩

theorem of_frames (same : st'.frames = st.frames) : Wears among st st' :=
  .of_same (by rw [caller_of_frames same]; exact id) (code?_funext same)

/-- A new frame returns nowhere. -/
theorem addFrame {frame : Frame V (Body V C)} (rootless : frame.caller = none)
    (idle : frame.code.pending among st.frames.next = 0) (apart : among st.frames.next = false) :
    Wears among st (st.addFrame frame).2 := by
  have callers : (st.addFrame frame).2.caller = st.caller := by
    funext f
    simp only [State.addFrame, State.caller, Table.get?_add_eq]
    split
    · next fresh => simp [fresh, rootless]
    · rfl
  refine ⟨by rw [callers]; exact id, fun f => ?_, fun {f} counts known => ?_⟩
  · simp only [State.addFrame, State.pending, code?, Table.get?_add_eq]
    split
    · next fresh => simp [fresh, idle]
    · rfl
  · have other : f ≠ st.frames.next := by
      rintro rfl
      simp [apart] at counts
    simpa [State.addFrame, code?, Table.get?_add_eq, other] using known

end Wears

/-! ## Changing a frame -/

theorem code?_setCode_eq {before : Frame.Code V (Body V C)} (here : st.code? f = some before)
    (code : Frame.Code V (Body V C)) :
    (st.setCode f code).code? = Function.update st.code? f (some code) := by
  have known : (st.frames.get? f).isSome = true := by
    obtain ⟨frame, found, _⟩ := Option.map_eq_some_iff.1 here
    simp [found]
  funext g
  by_cases same : g = f
  · subst same
    rw [code?_setCode known, Function.update_self]
  · rw [Function.update_of_ne same, code?, State.setCode, get?_modifyFrame, if_neg same, code?]

/-- Attaching a frame that is not below its new caller leaves no frame below itself. -/
theorem wears_attach {caller : Option FrameId} (done : st.attach f caller = .ok st') :
    st'.code? = st.code? ∧ (Acyclic st.caller → Acyclic st'.caller) := by
  obtain ⟨known, apart, rfl⟩ := attach_ok done
  obtain ⟨frame, found⟩ := Option.isSome_iff_exists.1 known
  constructor
  · funext g
    rw [code?, get?_modifyFrame, code?]
    split
    · next same => rw [same, found]; rfl
    · rfl
  · intro acyclic
    rw [caller_attach known]
    refine acyclic.update fun c new way => ?_
    rw [new, isOnChain_of_reaches acyclic known way] at apart
    cases apart

theorem wears_callFrame {callee : FrameId} {value : V} {answer : Answer V}
    (done : st.callFrame t f callee value = .ok (answer, st')) :
    st'.code? = st.code? ∧ (Acyclic st.caller → Acyclic st'.caller) := by
  simp only [callFrame, bind_ok, pure_ok, Prod.mk.injEq] at done
  obtain ⟨st₁, attached, st₂, paused, _, rfl⟩ := done
  obtain ⟨_, rfl⟩ := pause_ok paused
  have attaches : st₁.code? = st.code? ∧ (Acyclic st.caller → Acyclic st₁.caller) := wears_attach attached
  exact attaches

/-! ## Resuming a frame -/

/-- What resuming a frame does to frames, told apart by what the frame is. -/
inductive Stirs (st : State V C) (f : FrameId) : Resumption V C → State V C → Prop where
  | runs {body : Body V C} {resumption : Resumption V C} {st' : State V C}
      (code : st.code? f = some (.host body)) (frames : st'.frames = st.frames) : Stirs st f resumption st'
  | delivers {a : ActorId} {message : V} {resumption : Resumption V C} {st' : State V C}
      (code : st.code? f = some (.message a message false))
      (frames : st'.frames = (st.setCode f (.message a message true)).frames) : Stirs st f resumption st'
  /-- A guard asks for its resource, or got it and calls its body. -/
  | turns {r : ResourceId} {phase phase' : Phase V} {answer : Answer V} {st' : State V C}
      (code : st.code? f = some (.guard r phase)) (later : phase.Later phase')
      (codes : st'.code? = Function.update st.code? f (some (.guard r phase')))
      (callers : Acyclic st.caller → Acyclic st'.caller) : Stirs st f ⟨.answer answer, none⟩ st'
  /-- A guard lets go. -/
  | frees {r : ResourceId} {answer : Answer V} {st' : State V C} (code : st.code? f = some (.guard r .held))
      (final : answer.IsFinal) (frames : st'.frames = (st.setCode f (.guard r .released)).frames) :
      Stirs st f ⟨.answer answer, none⟩ st'
  | parks {child : TaskId} {st' : State V C} (code : st.code? f = some (.join child false))
      (frames : st'.frames = (st.setCode f (.join child true)).frames) : Stirs st f ⟨.answer .suspended, none⟩ st'
  /-- A join or a delivered message passes on what it got. -/
  | passes {answer : Answer V} {st' : State V C} (made : (∃ child parked, st.code? f = some (.join child parked)) ∨
      ∃ a message, st.code? f = some (.message a message true)) (final : answer.IsFinal)
      (frames : st'.frames = st.frames) : Stirs st f ⟨.answer answer, none⟩ st'

theorem Answer.isFinal_forward (value : V) (error : Option (Error V)) :
    (Answer.forward value error).IsFinal := by
  cases error <;> trivial

theorem isFinal_answerOf (outcome : Outcome V) : (answerOf outcome).IsFinal := by
  cases outcome <;> trivial

theorem frames_release {r : ResourceId} (done : st.release r t = .ok st') : st'.frames = st.frames := by
  obtain ⟨_, _, ⟨_, rfl⟩ | ⟨next, rest, _, woken⟩⟩ := release_ok done
  · rfl
  · exact (Quiet.ready woken).frames

theorem stirs_resumeGuard {r : ResourceId} {phase : Phase V} {value : V} {error : Option (Error V)}
    {answer : Answer V} (code : st.code? f = some (.guard r phase))
    (done : st.resumeGuard t f r phase value error = .ok (answer, st')) :
    Stirs st f ⟨.answer answer, none⟩ st' := by
  have recoded (phase' : Phase V) := code?_setCode_eq code (.guard r phase')
  -- Whatever the guard becomes, it counts as released before.
  have again {st₁ : State V C} (phase' : Phase V) (same : st₁.frames = (st.setCode f (.guard r .released)).frames) :
      (st₁.setCode f (.guard r phase')).code? = Function.update st.code? f (some (.guard r phase')) ∧
      (st₁.setCode f (.guard r phase')).caller = st.caller := by
    have here : st₁.code? f = some (.guard r .released) := by
      rw [code?_of_frames same, recoded, Function.update_self]
    refine ⟨?_, ?_⟩
    · rw [code?_setCode_eq here, code?_funext same, recoded, Function.update_idem]
    · rw [caller_setCode, caller_of_frames same, caller_setCode]
  cases phase with
  | start body =>
    simp only [State.resumeGuard] at done
    split at done
    · simp only [pure_ok, Prod.mk.injEq] at done
      obtain ⟨_, rfl⟩ := done
      exact .turns code .refused (recoded _) (by rw [caller_setCode]; exact id)
    · simp only [bind_ok] at done
      obtain ⟨⟨granted, st₁⟩, acquired, done⟩ := done
      have frames : st₁.frames = (st.setCode f (.guard r .released)).frames := frames_acquire acquired
      dsimp only at done
      split at done
      · obtain ⟨codes, callers⟩ := wears_callFrame done
        obtain ⟨same, link⟩ := again .held frames
        exact .turns code .granted (codes.trans same) (link ▸ callers)
      · simp only [pure_ok, Prod.mk.injEq] at done
        obtain ⟨_, rfl⟩ := done
        obtain ⟨same, link⟩ := again (.waiting body value) frames
        exact .turns code .parked same (by rw [link]; exact id)
      · simp only [pure_ok, Prod.mk.injEq] at done
        obtain ⟨_, rfl⟩ := done
        refine .turns code .refused ((code?_funext frames).trans (recoded _)) ?_
        rw [caller_of_frames frames, caller_setCode]
        exact id
  | waiting body kept =>
    simp only [State.resumeGuard, check_ok] at done
    obtain ⟨_, _, done⟩ := done
    obtain ⟨codes, callers⟩ := wears_callFrame done
    obtain ⟨same, link⟩ := again .held rfl
    exact .turns code .woken (codes.trans same) (link ▸ callers)
  | held =>
    simp only [State.resumeGuard, bind_ok, pure_ok, Prod.mk.injEq] at done
    obtain ⟨st₁, gives, rfl, rfl⟩ := done
    exact .frees code (Answer.isFinal_forward value error) (frames_release gives)
  | released => simp [State.resumeGuard] at done

theorem stirs_resumeJoin {child : TaskId} {parked : Bool} {error : Option (Error V)} {answer : Answer V}
    (code : st.code? f = some (.join child parked))
    (done : st.resumeJoin t f child parked error = .ok (answer, st')) :
    Stirs st f ⟨.answer answer, none⟩ st' := by
  have passes (final : answer.IsFinal) (frames : st'.frames = st.frames) : Stirs st f ⟨.answer answer, none⟩ st' :=
    .passes (.inl ⟨child, parked, code⟩) final frames
  unfold State.resumeJoin at done
  split at done
  · simp only [pure_ok, Prod.mk.injEq] at done
    obtain ⟨rfl, rfl⟩ := done
    exact passes trivial rfl
  · split at done
    · simp only [bind_ok] at done
      obtain ⟨awaited, _, done⟩ := done
      split at done
      · simp only [pure_ok, Prod.mk.injEq] at done
        obtain ⟨rfl, rfl⟩ := done
        exact passes (isFinal_answerOf _) rfl
      · simp at done
    · next first =>
      obtain rfl : parked = false := by simpa using first
      simp only [bind_ok] at done
      obtain ⟨⟨reply, st₁⟩, waited, done⟩ := done
      have frames := (Quiet.waitFor waited).frames
      split at done
      · simp only [pure_ok, Prod.mk.injEq] at done
        obtain ⟨rfl, rfl⟩ := done
        exact passes (isFinal_answerOf _) frames
      · simp only [pure_ok, Prod.mk.injEq] at done
        obtain ⟨rfl, rfl⟩ := done
        refine .parks code ?_
        simp only [State.setCode, State.modifyFrame, frames]
      · simp only [pure_ok, Prod.mk.injEq] at done
        obtain ⟨rfl, rfl⟩ := done
        exact passes trivial frames

theorem stirs_resumeMessage {a : ActorId} {message : V} {delivered : Bool} {value : V}
    {error : Option (Error V)} {resumption : Resumption V C}
    (code : st.code? f = some (.message a message delivered))
    (done : st.resumeMessage t f a message delivered value error = .ok (resumption, st')) :
    Stirs st f resumption st' := by
  unfold State.resumeMessage at done
  split at done
  · next again =>
    simp only [pure_ok, Prod.mk.injEq] at done
    obtain ⟨rfl, rfl⟩ := done
    exact .passes (.inr ⟨a, message, again ▸ code⟩) (Answer.isFinal_forward value error) rfl
  · next first =>
    obtain rfl : delivered = false := by simpa using first
    split at done
    · simp only [pure_ok, Prod.mk.injEq] at done
      exact .delivers code (done.2 ▸ rfl)
    · simp only [bind_ok] at done
      obtain ⟨actor, _, may, _, done⟩ := done
      split at done
      · simp only [pure_ok, Prod.mk.injEq] at done
        exact .delivers code (done.2 ▸ rfl)
      · simp at done

theorem stirs_of_resume {value : V} {error : Option (Error V)} {resumption : Resumption V C}
    (done : st.resume t f value error = .ok (resumption, st')) : Stirs st f resumption st' := by
  simp only [State.resume, bind_ok, frame_ok] at done
  obtain ⟨frame, found, done⟩ := done
  have code : st.code? f = some frame.code := by rw [code?, found]; rfl
  split at done
  · next body same =>
    simp only [pure_ok, Prod.mk.injEq] at done
    exact .runs (same ▸ code) (done.2 ▸ rfl)
  · next r phase same =>
    simp only [bind_ok, pure_ok, Prod.mk.injEq] at done
    obtain ⟨⟨answer, st₁⟩, resumed, rfl, rfl⟩ := done
    exact stirs_resumeGuard (same ▸ code) resumed
  · next child parked same =>
    simp only [bind_ok, pure_ok, Prod.mk.injEq] at done
    obtain ⟨⟨answer, st₁⟩, resumed, rfl, rfl⟩ := done
    exact stirs_resumeJoin (same ▸ code) resumed
  · next a message delivered same => exact stirs_resumeMessage (same ▸ code) done

/-- Resuming the frame runs code that somebody wrote: the code of the frame, or the handler of an actor. -/
def engages (st : State V C) (f : FrameId) : Bool :=
  match st.code? f with
  | some (.host _) | some (.message _ _ false) => true
  | _ => false

/-- The code that the host wrote for a frame. -/
def body? (st : State V C) (f : FrameId) : Option (Body V C) :=
  match st.code? f with
  | some (.host body) => some body
  | _ => none

/-- The body that a guard calls when it is resumed and owns its resource, if it did not call it yet. -/
def awaited? (st : State V C) (f : FrameId) : Option FrameId :=
  match st.code? f with
  | some (.guard _ (.start body)) | some (.guard _ (.waiting body _)) => some body
  | _ => none

namespace Stirs

variable {resumption : Resumption V C}

/-- What resuming a frame does to frames depends on nothing else. -/
theorem congr {st₁ : State V C} (stirs : Stirs st₁ f resumption st') (same : st₁.frames = st.frames) :
    Stirs st f resumption st' := by
  have codes := code?_funext same
  have sets (code : Frame.Code V (Body V C)) : (st₁.setCode f code).frames = (st.setCode f code).frames := by
    simp only [State.setCode, State.modifyFrame, same]
  have callers := caller_of_frames same
  cases stirs with
  | runs code frames => exact .runs (codes ▸ code) (frames.trans same)
  | delivers code frames => exact .delivers (codes ▸ code) (frames.trans (sets _))
  | turns code later recoded keeps => exact .turns (codes ▸ code) later (codes ▸ recoded) (callers ▸ keeps)
  | frees code final frames => exact .frees (codes ▸ code) final (frames.trans (sets _))
  | parks code frames => exact .parks (codes ▸ code) (frames.trans (sets _))
  | passes made final frames => exact .passes (codes ▸ made) final (frames.trans same)

theorem known (stirs : Stirs st f resumption st') : (st.code? f).isSome = true := by
  cases stirs with
  | passes made => rcases made with ⟨_, _, code⟩ | ⟨_, _, code⟩ <;> rw [code] <;> rfl
  | runs code | delivers code | turns code | frees code | parks code =>
    rw [code]
    rfl

/-- A frame that is replaced by one that is left less to do. -/
theorem pending_le_of_update {code : Frame.Code V (Body V C)}
    (codes : st'.code? = Function.update st.code? f (some code))
    (less : code.pending among f ≤ st.pending among f) (g : FrameId) :
    st'.pending among g ≤ st.pending among g := by
  by_cases same : g = f
  · subst same
    rw [State.pending, codes, Function.update_self]
    exact less
  · rw [pending_of_code?]
    rw [codes, Function.update_of_ne same]

theorem old_of_update {before code : Frame.Code V (Body V C)} (here : st.code? f = some before)
    (codes : st'.code? = Function.update st.code? f (some code)) (known : (st'.code? g).isSome = true) :
    (st.code? g).isSome = true := by
  by_cases same : g = f
  · rw [same, here]
    rfl
  · rwa [codes, Function.update_of_ne same] at known

theorem codes_of_setCode {before code : Frame.Code V (Body V C)} (here : st.code? f = some before)
    (frames : st'.frames = (st.setCode f code).frames) :
    st'.code? = Function.update st.code? f (some code) :=
  (code?_funext frames).trans (code?_setCode_eq here code)

theorem callers_of_setCode {code : Frame.Code V (Body V C)} (frames : st'.frames = (st.setCode f code).frames) :
    st'.caller = st.caller := by
  rw [caller_of_frames frames, caller_setCode]

theorem wears (stirs : Stirs st f resumption st') : Wears among st st' := by
  have recode {code : Frame.Code V (Body V C)} {before : Frame.Code V (Body V C)} (here : st.code? f = some before)
      (frames : st'.frames = (st.setCode f code).frames)
      (less : code.pending among f ≤ st.pending among f) : Wears among st st' :=
    ⟨by rw [callers_of_setCode frames]; exact id, pending_le_of_update (codes_of_setCode here frames) less,
      fun _ => old_of_update here (codes_of_setCode here frames)⟩
  cases stirs with
  | runs code frames => exact .of_frames frames
  | delivers code frames => exact recode code frames (Nat.zero_le _)
  | @turns r phase phase' answer st' code later codes callers =>
    refine ⟨callers, pending_le_of_update codes ?_, fun _ => old_of_update code codes⟩
    rw [pending, code, Option.elim_some]
    cases later <;> simp only [Frame.Code.pending] <;> split <;> omega
  | frees code final frames => exact recode code frames (Nat.zero_le _)
  | parks code frames => exact recode code frames (Nat.zero_le _)
  | passes made final frames => exact .of_frames frames

/-- A guard that is resumed before it called its body is left less to do. -/
theorem lowers_guard {body : FrameId} (stirs : Stirs st f resumption st') (waits : st.awaited? f = some body)
    (counts : among body = true) : st'.pending among f < st.pending among f := by
  cases stirs with
  | runs code => simp [awaited?, code] at waits
  | delivers code => simp [awaited?, code] at waits
  | @turns r phase phase' answer st' code later codes callers =>
    rw [pending, codes, Function.update_self, pending, code]
    cases later <;> simp only [awaited?, code, Option.some.injEq] at waits <;> subst waits <;>
      simp [Frame.Code.pending, counts]
  | frees code => simp [awaited?, code] at waits
  | parks code => simp [awaited?, code] at waits
  | passes made => rcases made with ⟨_, _, code⟩ | ⟨_, _, code⟩ <;> simp [awaited?, code] at waits

/-- A message is delivered once. -/
theorem lowers_message {a : ActorId} {message : V} (stirs : Stirs st f resumption st')
    (waits : st.code? f = some (.message a message false)) (counts : among f = true) :
    st'.pending among f < st.pending among f := by
  cases stirs with
  | delivers code frames =>
    rw [pending, codes_of_setCode code frames, Function.update_self, pending, code]
    simp [Frame.Code.pending, counts]
  | runs code | turns code | frees code | parks code => simp [waits] at code
  | passes made => rcases made with ⟨_, _, code⟩ | ⟨_, _, code⟩ <;> simp [waits] at code

/-- A frame of the runtime that nobody wrote code for is left less to do, or it is finished. -/
theorem lowers_or_final (stirs : Stirs st f resumption st') (made : st.engages f = false) :
    (∃ answer, resumption = ⟨.answer answer, none⟩) ∧
    (st'.pending (fun _ => true) f < st.pending (fun _ => true) f ∨
      (∃ answer : Answer V, answer.IsFinal ∧ resumption = ⟨.answer answer, none⟩) ∧
        st'.caller = st.caller ∧ st'.frames.size = st.frames.size) := by
  cases stirs with
  | runs code => simp [engages, code] at made
  | delivers code => simp [engages, code] at made
  | @turns r phase phase' answer st' code later codes callers =>
    refine ⟨⟨answer, rfl⟩, .inl ?_⟩
    rw [pending, codes, Function.update_self, pending, code]
    cases later <;> simp [Frame.Code.pending]
  | @frees r answer st' code final frames =>
    refine ⟨⟨answer, rfl⟩, .inr ⟨⟨answer, final, rfl⟩, callers_of_setCode frames, ?_⟩⟩
    rw [frames, State.setCode, State.modifyFrame, Table.size_modify]
  | parks code frames =>
    refine ⟨⟨.suspended, rfl⟩, .inl ?_⟩
    rw [pending, codes_of_setCode code frames, Function.update_self, pending, code]
    simp [Frame.Code.pending]
  | @passes answer st' made final frames =>
    exact ⟨⟨answer, rfl⟩, .inr ⟨⟨answer, final, rfl⟩, caller_of_frames frames, by rw [frames]⟩⟩

end Stirs

/-! ## All frames together -/

/-- How often the frames will still move on of their own. -/
def wear (st : State V C) (among : FrameId → Bool) : Nat :=
  ∑ n ∈ Finset.range st.frames.size, st.pending among ⟨n + 1⟩

theorem pending_eq_zero (unused : st.frames.get? f = none) : st.pending among f = 0 := by
  simp [pending, code?, unused]

theorem wear_eq_sum {bound : Nat} (within : st.frames.size ≤ bound) :
    st.wear among = ∑ n ∈ Finset.range bound, st.pending among ⟨n + 1⟩ := by
  refine Finset.sum_subset (Finset.range_subset_range.2 within) fun n _ outside => pending_eq_zero ?_
  rw [← Option.not_isSome_iff_eq_none, Table.isSome_get?_iff]
  simp only [Finset.mem_range, Nat.not_lt] at outside
  simp only [not_and, Nat.not_le]
  omega

/-- Sums over the frames of two states are taken over the same numbers. -/
theorem Wears.le (wears : Wears among st st') : st'.wear among ≤ st.wear among := by
  rw [wear_eq_sum (le_max_left st.frames.size st'.frames.size),
    wear_eq_sum (le_max_right st.frames.size st'.frames.size)]
  exact Finset.sum_le_sum fun n _ => wears.pending ⟨n + 1⟩

theorem Wears.lt (wears : Wears among st st') (less : st'.pending among f < st.pending among f) :
    st'.wear among < st.wear among := by
  have known : (st.frames.get? f).isSome = true := by
    by_contra unused
    rw [pending_eq_zero (show st.frames.get? f = none by simpa using unused)] at less
    omega
  have used := (st.frames.isSome_get?_iff f).1 known
  have same : (⟨f.number - 1 + 1⟩ : FrameId) = f := by rw [Nat.sub_add_cancel used.1]
  rw [wear_eq_sum (le_max_left st.frames.size st'.frames.size),
    wear_eq_sum (le_max_right st.frames.size st'.frames.size)]
  refine Finset.sum_lt_sum (fun n _ => wears.pending ⟨n + 1⟩) ⟨f.number - 1, ?_, ?_⟩
  · simp only [Finset.mem_range]
    omega
  · rwa [same]

/-! ## Requests -/

/-- Other requests leave all frames as they are. -/
theorem frames_serve [Inhabited V] {request : Request V C} {reply : request.Reply}
    (done : st.serve request = .ok (reply, st')) (apart : request.reframes = false) : st'.frames = st.frames := by
  cases request with
  | attach | newGuard | newJoin | newMessage => cases apart
  | spawn s entry =>
    simp only [serve, State.spawn, bind_ok] at done
    obtain ⟨scheduler, _, done⟩ := done
    split at done
    · obtain rfl : st = st' := congrArg Prod.snd (pure_ok.1 done)
      rfl
    · obtain rfl : _ = st' := congrArg Prod.snd (pure_ok.1 done)
      rfl
  | spawnBound s entry =>
    simp only [serve, State.spawnBound, bind_ok] at done
    obtain ⟨scheduler, _, done⟩ := done
    split at done
    · obtain rfl : st = st' := congrArg Prod.snd (pure_ok.1 done)
      rfl
    · split at done
      · obtain rfl : _ = st' := congrArg Prod.snd (pure_ok.1 done)
        rfl
      · simp at done
      · simp only [bind_ok, State.startBound] at done
        obtain ⟨st₁, started, done⟩ := done
        obtain rfl : st₁ = st' := congrArg Prod.snd (pure_ok.1 done)
        exact (Quiet.start started).frames
  | start t =>
    simp only [serve, bind_ok, pure_ok, Prod.mk.injEq] at done
    obtain ⟨_, started, _, rfl⟩ := done
    exact (Quiet.start started).frames
  | ready t =>
    simp only [serve, bind_ok, pure_ok, Prod.mk.injEq] at done
    obtain ⟨_, woken, _, rfl⟩ := done
    exact (Quiet.ready woken).frames
  | yield t =>
    simp only [serve, bind_ok, pure_ok, Prod.mk.injEq] at done
    obtain ⟨_, yielded, _, rfl⟩ := done
    exact (Quiet.yield yielded).frames
  | waitExternal t =>
    simp only [serve, bind_ok, pure_ok, Prod.mk.injEq] at done
    obtain ⟨_, announced, _, rfl⟩ := done
    exact (Quiet.waitExternal announced).frames
  | pause t f =>
    simp only [serve, bind_ok, pure_ok, Prod.mk.injEq] at done
    obtain ⟨_, paused, _, rfl⟩ := done
    obtain ⟨_, rfl⟩ := pause_ok paused
    rfl
  | stop s =>
    simp only [serve, bind_ok, pure_ok, Prod.mk.injEq] at done
    obtain ⟨_, stopped, _, rfl⟩ := done
    exact (Quiet.stop stopped).frames
  | release r t =>
    simp only [serve, bind_ok, pure_ok, Prod.mk.injEq] at done
    obtain ⟨_, released, _, rfl⟩ := done
    exact frames_release released
  | move t target =>
    simp only [serve, State.move, bind_ok] at done
    obtain ⟨task, _, done⟩ := done
    split at done <;> obtain rfl : _ = st' := congrArg Prod.snd (pure_ok.1 done) <;> rfl
  | waitFor t child => exact (Quiet.waitFor done).frames
  | tryAcquire r t =>
    simp only [serve, State.tryAcquire, bind_ok] at done
    obtain ⟨resource, _, task, _, done⟩ := done
    split at done <;> obtain rfl : _ = st' := congrArg Prod.snd (pure_ok.1 done) <;> rfl
  | acquire r t => exact frames_acquire done
  | newScheduler settings g =>
    simp only [serve, State.addScheduler] at done
    split at done
    · obtain rfl : st = st' := congrArg Prod.snd (pure_ok.1 done)
      rfl
    · simp at done
    · obtain rfl : _ = st' := congrArg Prod.snd (pure_ok.1 done)
      rfl
  | intern g name =>
    simp only [serve, State.intern, bind_ok] at done
    obtain ⟨registry, _, done⟩ := done
    split at done <;> obtain rfl : _ = st' := congrArg Prod.snd (pure_ok.1 done) <;> rfl
  | newResource | newExclusive | setPayload | newRegistry | closeRegistry | newCell | write | update
    | findCycle | thread =>
    obtain rfl : _ = st' := congrArg Prod.snd (pure_ok.1 done)
    rfl
  | task | frame | resource | exclusive | actorState | lookup | nameOf | findNative | registry | scheduler
    | stats | read =>
    simp only [serve, bind_ok, pure_ok, Prod.mk.injEq] at done
    obtain ⟨_, _, _, rfl⟩ := done
    rfl

/-- A request that names no frame in question leaves no frame more to do. -/
theorem wears_serve [Inhabited V] {request : Request V C} {reply : request.Reply}
    (apart : ∀ g ∈ request.names st.frames.next, among g = false)
    (done : st.serve request = .ok (reply, st')) : Wears among st st' := by
  cases request with
  | attach f caller =>
    simp only [serve, bind_ok, pure_ok, Prod.mk.injEq] at done
    obtain ⟨_, attached, _, rfl⟩ := done
    obtain ⟨codes, callers⟩ := wears_attach attached
    exact .of_same callers codes
  | newGuard r body =>
    obtain rfl : _ = st' := congrArg Prod.snd (pure_ok.1 done)
    refine .addFrame rfl ?_ (apart _ (by simp [Request.names]))
    simp [Frame.Code.pending, apart body (by simp [Request.names])]
  | newJoin child =>
    obtain rfl : _ = st' := congrArg Prod.snd (pure_ok.1 done)
    refine .addFrame rfl ?_ (apart _ (by simp [Request.names]))
    simp [Frame.Code.pending, apart st.frames.next (by simp [Request.names])]
  | newMessage a message =>
    simp only [serve, State.addMessage, bind_ok, pure_ok] at done
    obtain ⟨actor, _, exclusive, _, made⟩ := done
    obtain rfl : _ = st' := congrArg Prod.snd made
    have idle := apart st.frames.next (by simp [Request.names])
    have body : Wears among st (st.addFrame ⟨"actor-message", none, .message a message false⟩).2 :=
      .addFrame rfl (by simp [Frame.Code.pending, idle]) idle
    refine body.trans (.addFrame rfl (by simp [Frame.Code.pending, State.addFrame, idle]) (apart _ ?_))
    simp [Request.names, State.addFrame, Table.next, Table.add]
  | _ => exact .of_frames (frames_serve done rfl)

end State

namespace Config

open State

variable {among : FrameId → Bool} {st : State V C} {t : TaskId} {focus after : Focus V C}
  {stack : List (Activation V C)}

/-- The frames that the code in focus creates, puts on a chain, or gives to somebody to call. -/
def names (c : Config V C) : List FrameId :=
  match c.focus with
  | .code (.newFrame _ _ _) => [c.state.frames.next]
  | .code (.ask request _) => request.names c.state.frames.next
  | _ => []

variable [Inhabited V] {c config : Config V C}

theorem wears_of_cancelNext {doomed : List FrameId} {target : FrameId} {value : V}
    (done : (⟨st, focus, stack⟩ : Config V C).cancelNext t doomed target value after = .ok config) :
    Wears among st config.state := by
  cases doomed with
  | nil =>
    obtain rfl := pure_ok.1 done
    exact .of_frames rfl
  | cons f rest =>
    obtain ⟨resumption, st', resumed, rfl⟩ := Crew.Sound.resumeFrame_ok
      (show (⟨st, focus, stack⟩ : Config V C).resumeFrame t f default (some .cancelled)
        (.cancel t rest target value after) = .ok config from done)
    exact (stirs_of_resume resumed).wears

theorem wears_of_does (apart : ∀ g ∈ c.names, among g = false) (does : Does c config) :
    Wears among c.state config.state := by
  cases does with
  | serves served => exact wears_serve apart served
  | newFrame => exact .addFrame rfl rfl (apart _ (by simp [names]))
  | newActor | registers | passes | rests | hands | opens | closes | returns | lands | unwinds =>
    exact .of_frames rfl
  | begins detours busy settled taken begun =>
    have frames := (Quiet.beginRun begun).1.frames
    rcases taken with ⟨s, taken⟩ | ⟨_, rfl⟩
    · exact .of_frames (frames.trans (Quiet.takeReady taken).frames)
    · exact .of_frames frames
  | @resumes st _ t _ _ _ _ _ found top resumed =>
    have takes : Wears among st (st.modifyTask t fun task => { task with value := default, error := none }) :=
      .of_frames rfl
    exact takes.trans (stirs_of_resume resumed).wears
  | suspends parked => exact .of_frames (Stops.park parked).1.frames
  | finishes ends found top link finished =>
    refine .of_frames (Stops.finish ?_ finished).frames
    simp [State.top, State.endRun, get?_modifyTask, found]
  | @leaps st _ t _ g _ _ _ _ _ _ _ found top path resumed =>
    have leaves : Wears among st (st.modifyTask t fun task => { task with top := some g }) := .of_frames rfl
    exact leaves.trans (stirs_of_resume resumed).wears
  | cancels resumed => exact (stirs_of_resume resumed).wears

/-- No step puts a frame below itself, and one that names no frame in question leaves no frame more to do. -/
theorem wears_of_step (apart : ∀ g ∈ c.names, among g = false) (step : c.step = .ok config) :
    Wears among c.state config.state := by
  by_cases tame : ∀ t target value next, c.focus ≠ .code (.unwind t target value next)
  · exact wears_of_does apart (does_of_step tame step)
  · push Not at tame
    obtain ⟨t, target, value, next, focus⟩ := tame
    obtain ⟨st, _, stack⟩ := c
    subst focus
    simp only [Config.step, stepCode, unwind, bind_ok, check_ok] at step
    obtain ⟨task, _, _, step⟩ := step
    split at step
    · exact wears_of_cancelNext step
    · simp at step

end Config

end Tasking
