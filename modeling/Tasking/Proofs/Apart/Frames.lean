import Tasking.Proofs.Apart.Cycles
import Tasking.Proofs.Touching

/-! # Frames that run alike

Chains of two runs are alike, so frames are attached, called and skipped alike.  The number of frames bounds a
walk along a chain, and that number differs between the runs.  But as long as no frame is below itself and all
callers exist, a chain is never longer than that (`State.Rooted.chainUpTo_eq`).

Resuming a frame in both runs comes to the same: a guard, a join or a delivery does alike what it does, and
other code goes on with programs that are alike (`Likeness.Mirrors.resume`).
-/

namespace Tasking

variable {V C : Type}

namespace State

variable {st st₁ : State V C} {f g : FrameId}

theorem take_chainUpTo (st : State V C) (bound more : Nat) (f : FrameId) :
    (st.chainUpTo (bound + more) f).take bound = st.chainUpTo bound f := by
  induction bound generalizing f with
  | zero => simp [chainUpTo]
  | succ bound inductionHypothesis =>
    rw [Nat.succ_add, chainUpTo_succ, chainUpTo_succ, List.take_succ_cons]
    cases st.caller f with
    | none => simp
    | some p => simp [inductionHypothesis]

namespace Rooted

variable (rooted : st.Rooted)
include rooted

theorem known_of_mem {bound : Nat} (known : (st.frames.get? f).isSome = true) (member : g ∈ st.chainUpTo bound f) :
    (st.frames.get? g).isSome = true := by
  cases (reaches_of_mem_chainUpTo member).cases_last with
  | inl here => exact here ▸ known
  | inr below =>
    obtain ⟨_, _, link⟩ := below
    exact rooted.known link

/-- Whoever walks further than there are frames meets no more of them. -/
theorem chainUpTo_eq (known : (st.frames.get? f).isSome = true) (more : Nat) :
    st.chainUpTo (st.frames.size + more) f = st.chain f := by
  have fits := st.frames.length_le_size (chainUpTo_nodup rooted.acyclic (st.frames.size + more) f)
    fun g member => rooted.known_of_mem known member
  rw [chain, ← st.take_chainUpTo st.frames.size more f, List.take_of_length_le fits]

theorem attach {c : Option FrameId} (known : ∀ g, c = some g → (st.frames.get? g).isSome = true)
    (done : st.attach f c = .ok st₁) : st₁.Rooted := by
  obtain ⟨here, apart, rfl⟩ := attach_ok done
  have callers := caller_attach here c
  refine ⟨?_, fun {a b} link => ?_⟩
  · rw [callers]
    apply rooted.acyclic.update
    rintro g rfl way
    rw [isOnChain_of_reaches rooted.acyclic here way] at apart
    cases apart
  · rw [isSome_modifyFrame]
    rw [callers] at link
    by_cases same : a = f
    · rw [same, Function.update_self] at link
      exact known b link
    · rw [Function.update_of_ne same] at link
      exact rooted.known link

theorem modifyFrame (f : FrameId) {change : Frame V (Body V C) → Frame V (Body V C)}
    (keeps : ∀ frame, (change frame).caller = frame.caller) : (st.modifyFrame f change).Rooted := by
  have callers : (st.modifyFrame f change).caller = st.caller := caller_modifyFrame keeps
  refine ⟨callers ▸ rooted.acyclic, fun link => ?_⟩
  rw [isSome_modifyFrame]
  exact rooted.known (callers ▸ link)

end Rooted

end State

namespace Likeness

variable [Inhabited V] {L : Likeness V C} {st st' st₁ st₁' : State V C} {t t' : TaskId}
  {f f' g g' : FrameId} {r r' : ResourceId} {x x' : ExclusiveId} {a a' : ActorId} {home home' : SchedulerId}
  {value value' : V} {error error' : Option (Error V)} {answer answer' : Answer V}

open State

/-- What was created belongs to the code in question. -/
def Fresh (L : Likeness V C) (st st₁ : State V C) : Prop :=
  ∀ kind n, st.size kind < n → n ≤ st₁.size kind → L.holds kind n

theorem Fresh.next {L : Likeness V C} (fresh : L.Fresh st st₁) (kind : Kind) (grew : st.size kind < st₁.size kind) :
    L.holds kind (st.size kind + 1) := fresh kind _ (Nat.lt_succ_self _) grew

theorem Fresh.later {L : Likeness V C} {st₂ : State V C} (fresh : L.Fresh st st₂)
    (earlier : ∀ kind, st.size kind ≤ st₁.size kind) : L.Fresh st₁ st₂ :=
  fun kind n new old => fresh kind n (Nat.lt_of_le_of_lt (earlier kind) new) old

structure Resumptions (L : Likeness V C) (resumption resumption' : Resumption V C) : Prop where
  program : L.Programs false resumption.program resumption'.program
  opened : Option.Rel L.id resumption.opened resumption'.opened

theorem Answers.forward (values : L.value value value') (errors : Option.Rel L.Errors error error') :
    L.Answers (.forward value error) (.forward value' error') := by
  cases errors with
  | none => exact .done values
  | some alike => exact .throw alike

theorem Outcomes.answerOf {outcome outcome' : Outcome V} (alike : L.Outcomes outcome outcome') :
    L.Answers (State.answerOf outcome) (State.answerOf outcome') := by
  cases alike with
  | done value => exact .done value
  | failed _ error => exact .throw error

namespace Mirrors

variable (mirrors : L.Mirrors st st')
include mirrors

/-! ## Chains -/

theorem caller (same : L.id f f') : Option.Rel L.id (st.caller f) (st'.caller f') := by
  exact related_bind (mirrors.frames f f' same) fun _ _ alike => alike.caller

theorem chainUpTo (same : L.id f f') (bound : Nat) :
    List.Forall₂ L.id (st.chainUpTo bound f) (st'.chainUpTo bound f') := by
  induction bound generalizing f f' with
  | zero => exact .nil
  | succ bound inductionHypothesis =>
    rw [chainUpTo_succ, chainUpTo_succ]
    have callers := mirrors.caller same
    cases found : st.caller f with
    | none =>
      rw [none_of_related callers found]
      exact .cons same .nil
    | some g =>
      obtain ⟨g', found', below⟩ := exists_of_related callers found
      rw [found']
      exact .cons same (inductionHypothesis below)

theorem known (same : L.id f f') : (st.frames.get? f).isSome = (st'.frames.get? f').isSome :=
  isSome_of_related (mirrors.frames f f' same)

/-- The runs see the same of a frame, however many frames there are beside it. -/
theorem frameView {view view' : Frame.View} (rooted' : st'.Rooted) (same : L.id f f')
    (done : st.frameView f = .ok view) (done' : st'.frameView f' = .ok view') : L.Views view view' := by
  simp only [State.frameView, bind_ok, frame_ok, pure_ok] at done done'
  obtain ⟨frame, found, rfl⟩ := done
  obtain ⟨frame', found', rfl⟩ := done'
  have alike := mirrors.frames.get same found found'
  obtain ⟨more, enough⟩ := Nat.exists_eq_add_of_le (L.level_le (mirrors.level .frame))
  have chains := mirrors.chainUpTo same st.frames.size
  rw [show st.frames.size = st'.frames.size + more from enough,
    rooted'.chainUpTo_eq (by simp [found']) more] at chains
  refine ⟨alike.label, alike.caller, ?_⟩
  rw [State.chain, show st.frames.size = st'.frames.size + more from enough]
  exact chains.length_eq

/-- What comes before a frame on a chain, if it is there. -/
theorem takeWhile_chainUpTo (same : L.id f f') (targets : L.id g g') {bound bound' : Nat}
    (member : g ∈ st.chainUpTo bound f) (member' : g' ∈ st'.chainUpTo bound' f') :
    List.Forall₂ L.id ((st.chainUpTo bound f).takeWhile (· ≠ g))
      ((st'.chainUpTo bound' f').takeWhile (· ≠ g')) := by
  induction bound generalizing bound' f f' with
  | zero => simp [State.chainUpTo] at member
  | succ bound inductionHypothesis =>
    cases bound' with
    | zero => simp [State.chainUpTo] at member'
    | succ bound' =>
      rw [chainUpTo_succ] at member member' ⊢
      rw [chainUpTo_succ]
      by_cases here : f = g
      · simp [here, (L.same_iff same targets).1 here]
      · have here' : f' ≠ g' := fun same' => here ((L.same_iff same targets).2 same')
        have later := (List.mem_cons.1 member).resolve_left (Ne.symm here)
        have later' := (List.mem_cons.1 member').resolve_left (Ne.symm here')
        rw [List.takeWhile_cons_of_pos (by simpa using here), List.takeWhile_cons_of_pos (by simpa using here')]
        apply List.Forall₂.cons same
        have callers := mirrors.caller same
        cases found : st.caller f with
        | none => simp [found] at later
        | some k =>
          obtain ⟨k', found', below⟩ := exists_of_related callers found
          rw [found] at later
          rw [found'] at later' ⊢
          exact inductionHypothesis below later later'

theorem framesAbove {top top' : Option FrameId} {doomed doomed' : List FrameId} (tops : Option.Rel L.id top top')
    (targets : L.id g g') (found : st.framesAbove top g = some doomed)
    (found' : st'.framesAbove top' g' = some doomed') : List.Forall₂ L.id doomed doomed' := by
  simp only [State.framesAbove, Option.ite_none_right_eq_some, Option.some.injEq] at found found'
  obtain ⟨member, rfl⟩ := found
  obtain ⟨member', rfl⟩ := found'
  cases tops with
  | none => simp [State.chainOf] at member
  | some same => exact mirrors.takeWhile_chainUpTo same targets member member'

theorem attach {c c' : Option FrameId} (same : L.id f f') (callers : Option.Rel L.id c c')
    (known : ∀ g, c = some g → (st.frames.get? g).isSome = true) (done : st.attach f c = .ok st₁)
    (done' : st'.attach f' c' = .ok st₁') : L.Moves st st' st₁ st₁' := by
  have known' : ∀ g', c' = some g' → (st'.frames.get? g').isSome = true := by
    rintro g' rfl
    cases callers with
    | some below => exact (mirrors.known below).symm.trans (known _ rfl)
  have rooted := fun before : st.Rooted => before.attach known done
  have rooted' := fun before : st'.Rooted => before.attach known' done'
  obtain ⟨_, _, rfl⟩ := attach_ok done
  obtain ⟨_, _, rfl⟩ := attach_ok done'
  exact mirrors.modifyFrame same (fun _ _ alike => { alike with caller := callers }) rooted rooted'

theorem pause (task : L.id t t') (same : L.id f f') (done : st.pause t f = .ok st₁)
    (done' : st'.pause t' f' = .ok st₁') : L.Moves st st' st₁ st₁' := by
  obtain ⟨_, rfl⟩ := pause_ok done
  obtain ⟨_, rfl⟩ := pause_ok done'
  exact mirrors.modifyTask task fun _ _ alike => { alike with top := .some same }

theorem setCode {code code' : Frame.Code V (Body V C)} (same : L.id f f') (codes : L.Codes code code') :
    L.Moves st st' (st.setCode f code) (st'.setCode f' code') :=
  mirrors.modifyFrame same (fun _ _ alike => { alike with code := codes })
    (fun before => before.modifyFrame f fun _ => rfl) fun before => before.modifyFrame f' fun _ => rfl

theorem callFrame (task : L.id t t') (same : L.id f f') (callees : L.id g g') (values : L.value value value')
    (known : (st.frames.get? f).isSome = true) (done : st.callFrame t f g value = .ok (answer, st₁))
    (done' : st'.callFrame t' f' g' value' = .ok (answer', st₁')) :
    L.Answers answer answer' ∧ L.Moves st st' st₁ st₁' := by
  simp only [State.callFrame, bind_ok, pure_ok, Prod.mk.injEq] at done done'
  obtain ⟨_, attached, _, paused, rfl, rfl⟩ := done
  obtain ⟨_, attached', _, paused', rfl, rfl⟩ := done'
  have first := mirrors.attach callees (.some same) (by rintro _ ⟨⟩; exact known) attached attached'
  exact ⟨.jump callees values, first.trans (first.mirrors.pause task callees paused paused')⟩

/-! ## New frames -/

theorem newFrame (label : String) {code code' : Frame.Code V (Body V C)}
    (mine : L.holds .frame (st.frames.size + 1)) (codes : L.Codes code code') :
    L.id st.frames.next st'.frames.next ∧
      L.Moves st st' (st.addFrame ⟨label, none, code⟩).2 (st'.addFrame ⟨label, none, code'⟩).2 :=
  ⟨mirrors.next mine, mirrors.addFrame mine ⟨rfl, .none, codes⟩ rfl⟩

theorem addGuard (resource : L.id r r') (body : L.id f f') (fresh : L.Fresh st (st.addGuard r f).2) :
    L.id (st.addGuard r f).1 (st'.addGuard r' f').1 ∧
      L.Moves st st' (st.addGuard r f).2 (st'.addGuard r' f').2 :=
  mirrors.newFrame _ (fresh.next .frame (by simp [State.size, State.addGuard, State.addFrame])) (.guard resource (.start body))

theorem addJoin (child : L.id t t') (fresh : L.Fresh st (st.addJoin t).2) :
    L.id (st.addJoin t).1 (st'.addJoin t').1 ∧ L.Moves st st' (st.addJoin t).2 (st'.addJoin t').2 :=
  mirrors.newFrame _ (fresh.next .frame (by simp [State.size, State.addJoin, State.addFrame])) (.join child false)

theorem addMessage (actor : L.id a a') (values : L.value value value')
    (done : st.addMessage a value = .ok (f, st₁)) (done' : st'.addMessage a' value' = .ok (f', st₁'))
    (fresh : L.Fresh st st₁) : L.id f f' ∧ L.Moves st st' st₁ st₁' := by
  simp only [State.addMessage, bind_ok, actor_ok, exclusive_ok, pure_ok] at done done'
  obtain ⟨_, found, _, state, done⟩ := done
  obtain ⟨_, found', _, state', done'⟩ := done'
  have actors := mirrors.actors.get actor found found'
  have states := mirrors.exclusives.get actors.state state state'
  obtain ⟨rfl, rfl⟩ := Prod.mk.inj done
  obtain ⟨rfl, rfl⟩ := Prod.mk.inj done'
  have body := mirrors.newFrame "actor-message"
    (fresh.next .frame (by simp only [State.size, State.addFrame, Table.size_add]; omega)) (.message actor values false)
  have guard := body.2.mirrors.addGuard states.resource body.1 (fresh.later body.2.avoids.size)
  exact ⟨guard.1, body.2.trans guard.2⟩

/-! ## Payloads -/

theorem mayOpen {may may' : Bool} (same : L.id x x') (task : L.id t t') (done : st.mayOpen x t = .ok may)
    (done' : st'.mayOpen x' t' = .ok may') : may = may' := by
  obtain ⟨_, found, rfl, _⟩ := mayOpen_ok done
  obtain ⟨_, found', rfl, _⟩ := mayOpen_ok done'
  exact mirrors.owns (mirrors.exclusives.get same found found').resource task

theorem openPayload (same : L.id x x') : L.Moves st st' (st.openPayload x) (st'.openPayload x') :=
  mirrors.modifyExclusive same fun _ _ alike => { alike with inUse := rfl }

theorem closePayload (same : L.id x x') : L.Moves st st' (st.closePayload x) (st'.closePayload x') :=
  mirrors.modifyExclusive same fun _ _ alike => { alike with inUse := rfl }

/-! ## Resuming -/

section Enrolled

variable (enrolled : st.Enrolled home) (enrolled' : st'.Enrolled home')
include enrolled enrolled'

theorem resumeGuard {phase phase' : Phase V} (task : L.id t t') (frame : L.id f f') (resource : L.id r r')
    (phases : L.Phases phase phase') (values : L.value value value')
    (errors : Option.Rel L.Errors error error') (known : (st.frames.get? f).isSome = true)
    (done : st.resumeGuard t f r phase value error = .ok (answer, st₁))
    (done' : st'.resumeGuard t' f' r' phase' value' error' = .ok (answer', st₁')) :
    L.Answers answer answer' ∧ L.Moves st st' st₁ st₁' := by
  have begun := mirrors.setCode frame (.guard resource .released)
  have still : ((st.setCode f (.guard r .released)).frames.get? f).isSome = true := by
    rw [State.setCode, isSome_modifyFrame]
    exact known
  cases phases with
  | start body =>
    cases errors with
    | some alike =>
      simp only [State.resumeGuard, pure_ok, Prod.mk.injEq] at done done'
      obtain ⟨rfl, rfl⟩ := done
      obtain ⟨rfl, rfl⟩ := done'
      exact ⟨.throw alike, begun⟩
    | none =>
      simp only [State.resumeGuard, bind_ok] at done done'
      obtain ⟨⟨granted, st₂⟩, acquired, done⟩ := done
      obtain ⟨⟨granted', st₂'⟩, acquired', done'⟩ := done'
      obtain ⟨grants, asked⟩ := begun.mirrors.acquire (enrolled.remains (.of_tables rfl rfl))
        (enrolled'.remains (.of_tables rfl rfl)) resource task acquired acquired'
      have second := begun.trans asked
      cases grants with
      | error refusal =>
        simp only [pure_ok, Prod.mk.injEq] at done done'
        obtain ⟨rfl, rfl⟩ := done
        obtain ⟨rfl, rfl⟩ := done'
        exact ⟨.throw (.deadlock refusal), second⟩
      | @ok granted _ same =>
        subst same
        cases granted with
        | blocked =>
          simp only [pure_ok, Prod.mk.injEq] at done done'
          obtain ⟨rfl, rfl⟩ := done
          obtain ⟨rfl, rfl⟩ := done'
          have parked := second.mirrors.setCode frame (.guard resource (.waiting body values))
          exact ⟨.suspended, second.trans parked⟩
        | acquired =>
          have held := second.mirrors.setCode frame (.guard resource .held)
          obtain ⟨answers, calls⟩ := held.mirrors.callFrame task frame body values (by
            rw [State.setCode, isSome_modifyFrame, frames_acquire acquired]
            exact still) done done'
          exact ⟨answers, (second.trans held).trans calls⟩
  | waiting body kept =>
    simp only [State.resumeGuard, check_ok] at done done'
    have held := begun.mirrors.setCode frame (.guard resource .held)
    obtain ⟨answers, calls⟩ := held.mirrors.callFrame task frame body kept (by
      rw [State.setCode, isSome_modifyFrame]
      exact still) done.2.2 done'.2.2
    exact ⟨answers, (begun.trans held).trans calls⟩
  | held =>
    simp only [State.resumeGuard, bind_ok, pure_ok, Prod.mk.injEq] at done done'
    obtain ⟨_, released, rfl, rfl⟩ := done
    obtain ⟨_, released', rfl, rfl⟩ := done'
    exact ⟨.forward values errors, begun.trans (begun.mirrors.release resource released released')⟩
  | released => simp [State.resumeGuard] at done

theorem resumeJoin {c c' : TaskId} {parked : Bool} (task : L.id t t') (frame : L.id f f') (child : L.id c c')
    (errors : Option.Rel L.Errors error error')
    (done : st.resumeJoin t f c parked error = .ok (answer, st₁))
    (done' : st'.resumeJoin t' f' c' parked error' = .ok (answer', st₁')) :
    L.Answers answer answer' ∧ L.Moves st st' st₁ st₁' := by
  cases errors with
  | some alike =>
    simp only [State.resumeJoin, pure_ok, Prod.mk.injEq] at done done'
    obtain ⟨rfl, rfl⟩ := done
    obtain ⟨rfl, rfl⟩ := done'
    exact ⟨.throw alike, mirrors.moves⟩
  | none =>
    cases parked with
    | true =>
      simp only [State.resumeJoin, ↓reduceIte, bind_ok, task_ok] at done done'
      obtain ⟨awaited, found, done⟩ := done
      obtain ⟨awaited', found', done'⟩ := done'
      have outcomes := (mirrors.tasks.get child found found').outcome
      cases ended : awaited.outcome with
      | none => simp [ended] at done
      | some outcome =>
        obtain ⟨outcome', ended', alike⟩ := exists_of_related outcomes ended
        simp only [ended, ended', pure_ok, Prod.mk.injEq] at done done'
        obtain ⟨rfl, rfl⟩ := done
        obtain ⟨rfl, rfl⟩ := done'
        exact ⟨alike.answerOf, mirrors.moves⟩
    | false =>
      simp only [State.resumeJoin, Bool.false_eq_true, ↓reduceIte, bind_ok] at done done'
      obtain ⟨⟨reply, st₂⟩, waited, done⟩ := done
      obtain ⟨⟨reply', st₂'⟩, waited', done'⟩ := done'
      obtain ⟨replies, first⟩ := mirrors.waitFor enrolled enrolled' task child waited waited'
      cases replies with
      | error refusal =>
        simp only [pure_ok, Prod.mk.injEq] at done done'
        obtain ⟨rfl, rfl⟩ := done
        obtain ⟨rfl, rfl⟩ := done'
        exact ⟨.throw (.deadlock refusal), first⟩
      | ok outcomes =>
        cases outcomes with
        | none =>
          simp only [pure_ok, Prod.mk.injEq] at done done'
          obtain ⟨rfl, rfl⟩ := done
          obtain ⟨rfl, rfl⟩ := done'
          exact ⟨.suspended, first.trans (first.mirrors.setCode frame (.join child true))⟩
        | some alike =>
          simp only [pure_ok, Prod.mk.injEq] at done done'
          obtain ⟨rfl, rfl⟩ := done
          obtain ⟨rfl, rfl⟩ := done'
          exact ⟨alike.answerOf, first⟩

omit enrolled enrolled' in
theorem resumeMessage {message message' : V} {delivered : Bool} {resumption resumption' : Resumption V C}
    (task : L.id t t') (frame : L.id f f') (actor : L.id a a') (messages : L.value message message')
    (values : L.value value value') (errors : Option.Rel L.Errors error error')
    (done : st.resumeMessage t f a message delivered value error = .ok (resumption, st₁))
    (done' : st'.resumeMessage t' f' a' message' delivered value' error' = .ok (resumption', st₁')) :
    L.Resumptions resumption resumption' ∧ L.Moves st st' st₁ st₁' := by
  cases delivered with
  | true =>
    simp only [State.resumeMessage, ↓reduceIte, pure_ok, Prod.mk.injEq] at done done'
    obtain ⟨rfl, rfl⟩ := done
    obtain ⟨rfl, rfl⟩ := done'
    exact ⟨⟨.answer (.forward values errors), .none⟩, mirrors.moves⟩
  | false =>
    have begun := mirrors.setCode frame (.message actor messages true)
    cases errors with
    | some alike =>
      simp only [State.resumeMessage, Bool.false_eq_true, ↓reduceIte, pure_ok, Prod.mk.injEq] at done done'
      obtain ⟨rfl, rfl⟩ := done
      obtain ⟨rfl, rfl⟩ := done'
      exact ⟨⟨.answer (.throw alike), .none⟩, begun⟩
    | none =>
      simp only [State.resumeMessage, Bool.false_eq_true, ↓reduceIte, bind_ok, actor_ok] at done done'
      obtain ⟨_, found, may, opens, done⟩ := done
      obtain ⟨_, found', may', opens', done'⟩ := done'
      have actors := begun.mirrors.actors.get actor found found'
      obtain rfl := begun.mirrors.mayOpen actors.state task opens opens'
      cases may with
      | false => simp at done
      | true =>
        simp only [↓reduceIte, pure_ok, Prod.mk.injEq] at done done'
        obtain ⟨rfl, rfl⟩ := done
        obtain ⟨rfl, rfl⟩ := done'
        exact ⟨⟨actors.handler _ _ _ _ _ _ ⟨task, frame⟩ actors.state messages, .some actors.state⟩,
          begun.trans (begun.mirrors.openPayload actors.state)⟩

/-- Frames that are alike go on with programs that are alike. -/
theorem resume {resumption resumption' : Resumption V C} (task : L.id t t') (frame : L.id f f')
    (values : L.value value value') (errors : Option.Rel L.Errors error error')
    (done : st.resume t f value error = .ok (resumption, st₁))
    (done' : st'.resume t' f' value' error' = .ok (resumption', st₁')) :
    L.Resumptions resumption resumption' ∧ L.Moves st st' st₁ st₁' := by
  simp only [State.resume, bind_ok, frame_ok] at done done'
  obtain ⟨resumed, found, done⟩ := done
  obtain ⟨resumed', found', done'⟩ := done'
  have codes := (mirrors.frames.get frame found found').code
  revert codes done done'
  generalize resumed.code = code, resumed'.code = code'
  intro done done' codes
  cases codes with
  | host alike =>
    simp only [pure_ok, Prod.mk.injEq] at done done'
    obtain ⟨rfl, rfl⟩ := done
    obtain ⟨rfl, rfl⟩ := done'
    exact ⟨⟨alike _ _ _ _ _ _ ⟨task, frame⟩ values errors, .none⟩, mirrors.moves⟩
  | guard resource phases =>
    simp only [bind_ok, pure_ok, Prod.mk.injEq] at done done'
    obtain ⟨_, served, rfl, rfl⟩ := done
    obtain ⟨_, served', rfl, rfl⟩ := done'
    obtain ⟨answers, moves⟩ := mirrors.resumeGuard enrolled enrolled' task frame resource phases values errors
      (by simp [found]) served served'
    exact ⟨⟨.answer answers, .none⟩, moves⟩
  | join child parked =>
    simp only [bind_ok, pure_ok, Prod.mk.injEq] at done done'
    obtain ⟨_, served, rfl, rfl⟩ := done
    obtain ⟨_, served', rfl, rfl⟩ := done'
    obtain ⟨answers, moves⟩ := mirrors.resumeJoin enrolled enrolled' task frame child errors served served'
    exact ⟨⟨.answer answers, .none⟩, moves⟩
  | message actor messages delivered =>
    exact mirrors.resumeMessage task frame actor messages values errors done done'

end Enrolled

end Mirrors

end Likeness

end Tasking
