import Tasking.Proofs.Effects

/-! # What resuming a frame does to ownership

Resuming a frame that is not a guard changes no ownership.  A guard takes one of five steps
(`Picture.Guarding`), and if it has its resource after that, it calls its body.

`Picture.Neutral` says of a change that it concerns no guard that exists and no resource, and
the chain of at most one task.
-/

namespace Tasking

variable {V C : Type}

namespace Picture

/-- What resuming a frame of a task can do to owners and guards. -/
inductive Guarding (p : Picture V) (t : TaskId) (f : FrameId) : Picture V → Prop where
  /-- The frame is not a guard. -/
  | plain (code : p.guard f = none) : Guarding p t f p
  /-- The guard was given an error before it asked, or was refused. -/
  | settle {r : ResourceId} {body : FrameId} (code : p.guard f = some (r, .start body)) :
      Guarding p t f (p.ward f r .released (p.owner r) (p.waiters r))
  /-- The guard took a free resource. -/
  | take {r : ResourceId} {body : FrameId} (code : p.guard f = some (r, .start body))
      (nobody : p.owner r = none) : Guarding p t f (p.ward f r .held (some t) (p.waiters r))
  /-- The guard got in line. -/
  | wait {r : ResourceId} {body : FrameId} {value : V} (code : p.guard f = some (r, .start body))
      (somebody : p.owner r ≠ none) (stage : p.stage t = some (.inside f))
      (top : p.top t = some f) :
      Guarding p t f (p.ward f r (.waiting body value) (p.owner r) (p.waiters r ++ [t]))
  /-- The guard was woken as the owner. -/
  | enter {r : ResourceId} {body : FrameId} {value : V}
      (code : p.guard f = some (r, .waiting body value)) (owns : p.owner r = some t) :
      Guarding p t f (p.ward f r .held (p.owner r) (p.waiters r))
  /-- The guard let go. -/
  | letGo {r : ResourceId} (code : p.guard f = some (r, .held)) :
      Guarding p t f (p.ward f r .released (p.waiters r).head? (p.waiters r).tail)

theorem Guarding.warded {p q : Picture V} {t : TaskId} {f : FrameId} (guarding : p.Guarding t f q)
    (warded : p.Warded) (front : p.Front t f) (absent : ∀ r, p.owner r = some t → t ∉ p.waiters r) :
    q.Warded := by
  cases guarding with
  | plain => exact warded
  | settle code => exact warded.settle front code
  | take code nobody => exact warded.take front code nobody
  | wait code somebody stage top => exact warded.wait top stage code somebody
  | enter code owns => exact warded.enter front code owns (absent _ owns)
  | letGo code => exact warded.letGo front code

/-- A change that concerns no guard and no resource, and the chain of at most one task. -/
structure Neutral (runner : Option TaskId) (p p' : Picture V) : Prop where
  warded : p.Warded → p'.Warded
  owner : p'.owner = p.owner
  waiters : p'.waiters = p.waiters
  known : ∀ {f}, p.known f → p'.known f
  guard : ∀ {f}, p.known f → p'.guard f = p.guard f
  top : ∀ {t f}, some t ≠ runner → p.top t = some f → p'.top t = some f
  stage : ∀ {t}, some t ≠ runner → p'.stage t = p.stage t

namespace Neutral

variable {runner : Option TaskId} {p p' p'' : Picture V}

@[refl] theorem refl (p : Picture V) : Neutral runner p p := 
  ⟨id, rfl, rfl, id, fun _ => rfl, fun _ => id, fun _ => rfl⟩

theorem trans (first : Neutral runner p p') (second : Neutral runner p' p'') :
    Neutral runner p p'' where
  warded warded := second.warded (first.warded warded)
  owner := second.owner.trans first.owner
  waiters := second.waiters.trans first.waiters
  known found := second.known (first.known found)
  guard found := (second.guard (first.known found)).trans (first.guard found)
  top other found := second.top other (first.top other found)
  stage other := (second.stage other).trans (first.stage other)

theorem move {t : TaskId} {top : Option FrameId} {stage : Option Stage}
    (warded : p.Warded → (p.move t top stage).Warded) : Neutral (some t) p (p.move t top stage) where
  warded := warded
  owner := rfl
  waiters := rfl
  known := id
  guard _ := rfl
  top {u f} other found := by
    have different : u ≠ t := fun same => other (same ▸ rfl)
    simpa [Picture.move, different] using found
  stage {u} other := by
    have different : u ≠ t := fun same => other (same ▸ rfl)
    simp [Picture.move, different]

theorem attach {f : FrameId} {c : Option FrameId} (warded : p.Warded → (p.attach f c).Warded) :
    Neutral runner p (p.attach f c) :=
  ⟨warded, rfl, rfl, id, fun _ => rfl, fun _ => id, fun _ => rfl⟩

theorem of_eq (same : p' = p) : Neutral runner p p' := by rw [same]

/-- A change that concerns no chain concerns none of any task. -/
theorem mono (neutral : Neutral none p p') : Neutral runner p p' :=
  ⟨neutral.warded, neutral.owner, neutral.waiters, neutral.known, neutral.guard,
    fun _ => neutral.top (by simp), fun _ => neutral.stage (by simp)⟩

end Neutral

/-- What happens to a guard in use does not concern idle frames. -/
theorem Idle.ward {p : Picture V} {t : TaskId} {f body : FrameId} {r : ResourceId} {phase : Phase V}
    {owner : Option TaskId} {waiters : List TaskId} (idle : p.Idle body) (on : p.OnChain t f) :
    (p.ward f r phase owner waiters).Idle body := by
  have other : body ≠ f := by
    rintro rfl
    exact idle.unused t (.inl on)
  refine ⟨idle.known, idle.unused, fun guard => ?_⟩
  rw [guard_ward_ne other] at guard
  exact idle.unresumed guard

/-- The code of a guard answers as its phase demands. -/
def Answers (p : Picture V) (t : TaskId) (f : FrameId) (program : Program V C) : Phase V → Prop
  | .start _ => False
  | .waiting _ _ => program = .answer .suspended
  | .held => ∃ body value, program = .answer (.jump body value) ∧ p.top t = some body ∧ body ≠ f
  | .released => (∃ value, program = .answer (.done value)) ∨ ∃ error, program = .answer (.throw error)

/-- A frame that is a guard answers as its phase demands. -/
def Awaits (p : Picture V) (t : TaskId) (f : FrameId) (program : Program V C) : Prop :=
  ∀ {r phase}, p.guard f = some (r, phase) → p.Answers t f program phase

end Picture

open Picture

theorem Answer.answers_forward {p : Picture V} {t : TaskId} {f : FrameId} (value : V)
    (error : Option (Error V)) :
    p.Answers t f (.answer (.forward value error) : Program V C) .released := by
  cases error with
  | none => exact .inl ⟨value, rfl⟩
  | some error => exact .inr ⟨error, rfl⟩

namespace State

variable {st st' : State V C} {stage : TaskId → Option Stage} {t : TaskId} {f : FrameId}

/-- A guard that has its resource calls its body. -/
theorem callFrame_ok {body : FrameId} {value : V} {answer : Answer V}
    (done : st.callFrame t f body value = .ok (answer, st')) :
    answer = .jump body value ∧ Within t st st' ∧
      st'.picture stage = ((st.picture stage).attach body (some f)).move t (some body) (stage t) := by
  simp only [callFrame, bind_ok, pure_ok, Prod.mk.injEq] at done
  obtain ⟨st₁, attached, st₂, paused, rfl, rfl⟩ := done
  refine ⟨rfl, ?_, ?_⟩
  · obtain ⟨_, _, rfl⟩ := attach_ok attached
    obtain ⟨_, rfl⟩ := pause_ok paused
    exact (Within.of_top (.modifyFrame st body _) rfl).trans
      (.modifyTask _ t (f := fun task => { task with top := some body }) (fun _ => rfl) fun _ => rfl)
  · rw [picture_pause paused, picture_attach attached]

/-- A guard that holds its resource may call an idle frame. -/
theorem neutral_call {q : Picture V} {r : ResourceId} {body : FrameId}
    (inside : q.stage t = some (.inside f)) (top : q.top t = some f)
    (held : q.guard f = some (r, .held)) (idle : q.Idle body) :
    Neutral (some t) q ((q.attach body (some f)).move t (some body) (q.stage t)) := by
  have on : q.OnChain t f := .of_base ((base_inside inside).trans top)
  have different : body ≠ f := by
    rintro rfl
    exact idle.unused t (.inl on)
  have may : q.Warded → q.MayCall (some f) body := fun warded =>
    { known := by
        rintro k ⟨⟩
        exact (warded.inside inside).1
      apart := by
        rintro k ⟨⟩ way
        obtain ⟨b, base, above⟩ := on
        exact idle.unused t (.inl ⟨b, base, above.trans way⟩)
      called := by
        rintro k r' phase ⟨⟩ guard
        exact .inl (congrArg Prod.snd (Option.some.inj (guard.symm.trans held))) }
  refine Neutral.trans (.attach fun warded => warded.attach idle (may warded)) ?_
  refine Neutral.move fun attached => attached.push (f := body) (g := f) inside (.inl ?_)
    (.inr (.inl ?_)) fun r' phase guard => ⟨?_, ?_⟩
  · exact ⟨idle.known, fun u uses => idle.unused u ((uses_attach idle).1 uses), idle.unresumed⟩
  · simp [Picture.attach]
  · exact congrArg Prod.snd (Option.some.inj (guard.symm.trans held))
  · simp [Picture.attach]

/-- The code of a guard was replaced, and resources changed. -/
theorem picture_code {st₁ : State V C} {r : ResourceId} {phase : Phase V} {owner : Option TaskId}
    {waiters : List TaskId} (known : (st.frames.get? f).isSome = true)
    (frames : st₁.frames = (st.setCode f (.guard r phase)).frames)
    (top : st₁.top = st.top) (owns : st₁.owner = Function.update st.owner r owner)
    (line : st₁.waiters = Function.update st.waiters r waiters) :
    st₁.picture stage = (st.picture stage).ward f r phase owner waiters := by
  refine picture_ward (fun g => ?_) ?_ ?_ top owns line
  · rw [frames]
    exact isSome_setCode f g _
  · refine Eq.trans ?_ (caller_setCode f (.guard r phase))
    unfold State.caller
    rw [frames]
  · refine Eq.trans ?_ (@guard?_setCode _ _ st f (.guard r phase) known)
    unfold State.guard?
    rw [frames]

/-- The code of a guard was replaced twice, and resources changed in between. -/
theorem picture_recode {st₁ : State V C} {r : ResourceId} {before phase : Phase V}
    {owner : Option TaskId} {waiters : List TaskId} (known : (st.frames.get? f).isSome = true)
    (frames : st₁.frames = (st.setCode f (.guard r before)).frames)
    (top : st₁.top = st.top) (owns : st₁.owner = Function.update st.owner r owner)
    (line : st₁.waiters = Function.update st.waiters r waiters) :
    (st₁.setCode f (.guard r phase)).picture stage =
      (st.picture stage).ward f r phase owner waiters := by
  have picture : st₁.picture stage = _ := picture_code known frames top owns line
  have known₁ : (st₁.frames.get? f).isSome = true := by
    rw [frames, isSome_setCode, known]
  rw [picture_setCode_guard known₁, picture, owns, line]
  simp [Picture.ward]

/-- A guard that has its resource calls its body. -/
theorem callFrame_effect {r : ResourceId} {body : FrameId} {value : V} {answer : Answer V}
    {owner : Option TaskId} {waiters : List TaskId} {q : Picture V}
    (same : st.picture stage = q.ward f r .held owner waiters) (on : q.OnChain t f)
    (inside : q.stage t = some (.inside f)) (top : q.top t = some f) (idle : q.Idle body)
    (done : st.callFrame t f body value = .ok (answer, st')) :
    Neutral (some t) (q.ward f r .held owner waiters) (st'.picture stage) ∧ Within t st st' ∧
      st'.guard? f = some (r, .held) ∧
      (st'.picture stage).Answers t f (.answer answer : Program V C) .held := by
  obtain ⟨rfl, keeps, picture⟩ : _ ∧ _ ∧ st'.picture stage = _ := callFrame_ok done
  have stays : stage t = (q.ward f r .held owner waiters).stage t :=
    congrArg (fun p : Picture V => p.stage t) same
  rw [same, stays] at picture
  have different : body ≠ f := by
    rintro rfl
    exact idle.unused t (.inl on)
  refine ⟨picture ▸ neutral_call inside top guard_ward_self (idle.ward on), keeps, ?_,
    body, value, rfl, ?_, different⟩
  · refine (congrFun (congrArg Picture.guard picture) f).trans ?_
    simp [Picture.move, Picture.attach]
  · rw [picture]
    simp [Picture.move]

/-- What resuming a guard does to the picture. -/
theorem resumeGuard_effect {r : ResourceId} {phase : Phase V} {value : V}
    {error : Option (Error V)} {answer : Answer V} (warded : (st.picture stage).Warded)
    (front : (st.picture stage).Front t f) (guards : st.guard? f = some (r, phase))
    (place : error = none → stage t = some (.inside f) ∧ st.top t = some f)
    (idle : ∀ body, error = none → (phase = .start body ∧ st.owner r = none ∨
      ∃ value, phase = .waiting body value) → (st.picture stage).Idle body)
    (done : st.resumeGuard t f r phase value error = .ok (answer, st')) :
    ∃ q, (st.picture stage).Guarding t f q ∧ Neutral (some t) q (st'.picture stage) ∧
      Within t st st' ∧ ∃ after, st'.guard? f = some (r, after) ∧
        (st'.picture stage).Answers t f (.answer answer : Program V C) after ∧
        (error ≠ none → after = .released) := by
  have known := isSome_of_guard? guards
  have released : (st.setCode f (.guard r .released)).guard? f = some (r, .released) := by
    simp [guard?_setCode known, Frame.Code.guard?]
  have recoded := Within.setCode t st f (.guard r .released)
  cases phase with
  | start body =>
    cases error with
    | some error =>
      simp only [resumeGuard, pure_ok, Prod.mk.injEq] at done
      obtain ⟨rfl, rfl⟩ := done
      exact ⟨_, .settle guards, .of_eq (picture_setCode_guard known), recoded,
        .released, released, .inr ⟨error, rfl⟩, fun _ => rfl⟩
    | none =>
      obtain ⟨inside, top⟩ := place rfl
      simp only [resumeGuard, bind_ok] at done
      obtain ⟨⟨granted, st₁⟩, acquired, done⟩ := done
      obtain ⟨knownResource, _, ⟨rfl, nobody, rfl⟩ |
        ⟨somebody, ⟨refusal, rfl, _, rfl⟩ | ⟨rfl, _, ⟨s, free⟩, rfl⟩⟩⟩ := acquire_ok acquired
      · have picture : (((st.setCode f (.guard r .released)).setOwner r (some t)).setCode f
            (.guard r .held)).picture stage =
            (st.picture stage).ward f r .held (some t) (st.waiters r) :=
          picture_recode known (show _ = (st.setCode f (.guard r .released)).frames from rfl) rfl
            (by rw [owner_setOwner knownResource, owner_setCode]) (by simp)
        obtain ⟨neutral, keeps, guard, answers⟩ := callFrame_effect picture front.onChain inside top
          (idle body rfl (.inl ⟨rfl, nobody⟩)) done
        exact ⟨_, .take guards nobody, neutral,
          recoded.trans ((Within.of_top (Keeps.setOwner _ r (some t)) (top_setOwner r _)).trans
            ((Within.setCode t _ f _).trans keeps)),
          .held, guard, answers, fun some => absurd rfl some⟩
      · simp only [pure_ok, Prod.mk.injEq] at done
        obtain ⟨rfl, rfl⟩ := done
        exact ⟨_, .settle guards, .of_eq (picture_setCode_guard known), recoded,
          .released, released, .inr ⟨.deadlock refusal, rfl⟩, fun _ => rfl⟩
      · simp only [pure_ok, Prod.mk.injEq] at done
        obtain ⟨rfl, rfl⟩ := done
        have picture : ((((st.setCode f (.guard r .released)).announceWait t (.resource r)).inLine t
            r).setCode f (.guard r (.waiting body value))).picture stage =
            (st.picture stage).ward f r (.waiting body value) (st.owner r) (st.waiters r ++ [t]) :=
          picture_recode known (show _ = (st.setCode f (.guard r .released)).frames from rfl) (by simp)
            (by simp) (by rw [waiters_inLine_eq (by exact knownResource)]; simp)
        refine ⟨_, @Guarding.wait _ _ _ _ _ _ value guards somebody inside top, .of_eq picture, ?_,
          .waiting body value, ?_, rfl, fun some => absurd rfl some⟩
        · have queued : Within t ((st.setCode f (.guard r .released)).announceWait t (.resource r)) _ :=
            .inLine ((link_announceWait t _ t).trans free) knownResource
          exact recoded.trans ((Quiet.announceWait _ t _).within.trans
            (queued.trans (Within.setCode t _ f _)))
        · exact (congrFun (congrArg Picture.guard picture) f).trans guard_ward_self
  | waiting body kept =>
    cases error with
    | some error => simp [resumeGuard, bind_ok] at done
    | none =>
      obtain ⟨inside, top⟩ := place rfl
      simp only [resumeGuard, Option.isSome_none, Bool.false_eq_true, ↓reduceIte, check_ok] at done
      obtain ⟨owned, called⟩ := done
      have owns : (st.setCode f (.guard r .released)).owner r = some t :=
        owns_iff.1 (by simpa using owned)
      have picture : ((st.setCode f (.guard r .released)).setCode f (.guard r .held)).picture stage =
          (st.picture stage).ward f r .held (st.owner r) (st.waiters r) :=
        picture_recode known (show _ = (st.setCode f (.guard r .released)).frames from rfl) rfl (by simp)
          (by simp)
      obtain ⟨neutral, keeps, guard, answers⟩ := callFrame_effect picture front.onChain inside top
        (idle body rfl (.inr ⟨kept, rfl⟩)) called
      exact ⟨_, .enter guards owns, neutral, recoded.trans ((Within.setCode t _ f _).trans keeps),
        .held, guard, answers, fun some => absurd rfl some⟩
  | held =>
    simp only [resumeGuard, bind_ok, pure_ok, Prod.mk.injEq] at done
    obtain ⟨st₁, released', rfl, rfl⟩ := done
    have answers : (st₁.picture stage).Answers t f (.answer (.forward value error) : Program V C)
        .released := Answer.answers_forward value error
    obtain ⟨knownResource, owns, ⟨empty, rfl⟩ | ⟨next, rest, line, woken⟩⟩ := release_ok released'
    · have picture : ((st.setCode f (.guard r .released)).setOwner r none).picture stage =
          (st.picture stage).ward f r .released (st.waiters r).head? (st.waiters r).tail :=
        picture_code known rfl rfl (by simp_all [owner_setOwner]) (by simp_all)
      exact ⟨_, .letGo guards, .of_eq picture,
        recoded.trans (.of_top (.setOwner _ r none) (top_setOwner r _)), .released, released, answers,
        fun _ => rfl⟩
    · have quiet := Quiet.ready woken
      have line' : st.waiters r = next :: rest.toList := line
      have picture : ((st.setCode f (.guard r .released)).handed next r rest).picture stage =
          (st.picture stage).ward f r .released (st.waiters r).head? (st.waiters r).tail :=
        picture_code known rfl (by simp) (by simp [owner_handed knownResource, line'])
          (by simp [waiters_handed_eq knownResource, line'])
      have elsewhere : ∀ q, q ≠ r → next ∉ st.waiters q := fun q other member => by
        have first : next ∈ st.waiters r := by simp [line']
        obtain ⟨g, _, _, top, waiting, _⟩ := warded.queued first
        obtain ⟨h, _, _, top', waiting', _⟩ := warded.queued member
        obtain rfl : g = h := Option.some.inj (top.symm.trans top')
        exact other (congrArg Prod.fst (Option.some.inj (waiting'.symm.trans waiting)))
      refine ⟨_, .letGo guards, .of_eq ((quiet.picture stage).trans picture), ?_, .released, ?_, ?_,
        fun _ => rfl⟩
      · exact recoded.trans ((Within.handed knownResource line (warded.nodup r) elsewhere).trans
          quiet.within)
      · exact (congrFun (congrArg Picture.guard ((quiet.picture stage).trans picture)) f).trans
          guard_ward_self
      · exact answers
  | released => simp [resumeGuard] at done

theorem guard?_of_get? {frame : Frame V (Body V C)} (found : st.frames.get? f = some frame) :
    st.guard? f = frame.code.guard? := by
  simp [guard?, found]

/-- Resuming a join concerns no chain and no ownership. -/
theorem resumeJoin_effect {child : TaskId} {parked : Bool} {error : Option (Error V)}
    {answer : Answer V} (plain : st.guard? f = none)
    (done : st.resumeJoin t f child parked error = .ok (answer, st')) :
    st'.picture stage = st.picture stage ∧ Within t st st' := by
  unfold resumeJoin at done
  split at done
  · simp only [pure_ok, Prod.mk.injEq] at done
    exact ⟨done.2 ▸ rfl, done.2 ▸ .refl st⟩
  · split at done
    · simp only [bind_ok, task_ok] at done
      obtain ⟨awaited, _, done⟩ := done
      split at done
      · simp only [pure_ok, Prod.mk.injEq] at done
        exact ⟨done.2 ▸ rfl, done.2 ▸ .refl st⟩
      · simp at done
    · simp only [bind_ok] at done
      obtain ⟨⟨reply, st₁⟩, waited, done⟩ := done
      have quiet := Quiet.waitFor waited
      have still : st₁.guard? f = none :=
        (congrFun (congrArg Picture.guard (quiet.picture stage)) f).trans plain
      split at done
      · simp only [pure_ok, Prod.mk.injEq] at done
        exact ⟨done.2 ▸ quiet.picture stage, done.2 ▸ quiet.within⟩
      · simp only [pure_ok, Prod.mk.injEq] at done
        obtain ⟨_, rfl⟩ := done
        exact ⟨(picture_setCode still rfl).trans (quiet.picture stage),
          quiet.within.trans (Within.setCode t st₁ f _)⟩
      · simp only [pure_ok, Prod.mk.injEq] at done
        exact ⟨done.2 ▸ quiet.picture stage, done.2 ▸ quiet.within⟩

theorem mayOpen_ok {x : ExclusiveId} {may : Bool} (done : st.mayOpen x t = .ok may) :
    ∃ exclusive, st.exclusives.get? x = some exclusive ∧
      may = st.owns t exclusive.resource ∧ (may = true → exclusive.inUse = false) := by
  simp only [mayOpen, bind_ok, exclusive_ok] at done
  obtain ⟨exclusive, found, done⟩ := done
  refine ⟨exclusive, found, ?_⟩
  split at done
  · next owns =>
    simp only [check_ok, pure_ok] at done
    obtain ⟨free, rfl⟩ := done
    exact ⟨owns.symm, fun _ => by simpa using free⟩
  · next foreign =>
    obtain rfl := pure_ok.1 done
    exact ⟨by simpa using foreign, by simp⟩

/-- Opening a payload concerns no chain and no ownership. -/
theorem Quiet.modifyExclusive (st : State V C) (x : ExclusiveId) (f : Exclusive V → Exclusive V) :
    Quiet st (st.modifyExclusive x f) :=
  .of_tasks rfl rfl (fun _ => rfl) (fun _ => rfl) fun lined =>
    lined.of_same (fun _ => rfl) (fun _ => rfl) (fun _ => id) fun _ => rfl

/-- Resuming the delivery of a message concerns no chain and no ownership. -/
theorem resumeMessage_effect {a : ActorId} {message : V} {delivered : Bool} {value : V}
    {error : Option (Error V)} {resumption : Resumption V C} (plain : st.guard? f = none)
    (done : st.resumeMessage t f a message delivered value error = .ok (resumption, st')) :
    st'.picture stage = st.picture stage ∧ Within t st st' := by
  unfold resumeMessage at done
  split at done
  · simp only [pure_ok, Prod.mk.injEq] at done
    exact ⟨done.2 ▸ rfl, done.2 ▸ .refl st⟩
  · have recoded : (st.setCode f (.message a message true)).picture stage = _ := picture_setCode plain rfl
    have keeps := Within.setCode t st f (.message a message true)
    split at done
    · simp only [pure_ok, Prod.mk.injEq] at done
      exact ⟨done.2 ▸ recoded, done.2 ▸ keeps⟩
    · simp only [bind_ok, actor_ok] at done
      obtain ⟨actor, _, may, _, done⟩ := done
      split at done
      · simp only [pure_ok, Prod.mk.injEq] at done
        obtain ⟨_, rfl⟩ := done
        have quiet := Quiet.modifyExclusive (st.setCode f (.message a message true)) actor.state
          fun exclusive => { exclusive with inUse := true }
        exact ⟨(quiet.picture stage).trans recoded, keeps.trans quiet.within⟩
      · simp at done

/-- Code that is not a guard's, and changes no picture, may answer anything. -/
theorem plain_effect {error : Option (Error V)} {resumption : Resumption V C}
    (plain : st.guard? f = none) (picture : st'.picture stage = st.picture stage)
    (keeps : Within t st st') :
    ∃ q, (st.picture stage).Guarding t f q ∧ Neutral (some t) q (st'.picture stage) ∧
      Within t st st' ∧ (st'.picture stage).Awaits t f resumption.program ∧
      (st'.guard? f ≠ none → resumption.opened = none) ∧
      (error ≠ none → (st'.picture stage).Slack f) := by
  have still : st'.guard? f = none := (congrFun (congrArg Picture.guard picture) f).trans plain
  refine ⟨_, .plain plain, .of_eq picture, keeps, fun {r phase} guard => ?_,
    fun guard => absurd still guard, fun _ r phase guard => ?_⟩
  · exact absurd (guard.symm.trans still) (by simp)
  · exact absurd (guard.symm.trans still) (by simp)

/-- What resuming a frame does to the picture. -/
theorem resume_effect {value : V} {error : Option (Error V)} {resumption : Resumption V C}
    (warded : (st.picture stage).Warded) (front : (st.picture stage).Front t f)
    (place : error = none → stage t = some (.inside f) ∧ st.top t = some f)
    (idle : ∀ {r body}, error = none → (st.guard? f = some (r, .start body) ∧ st.owner r = none ∨
      ∃ value, st.guard? f = some (r, .waiting body value)) → (st.picture stage).Idle body)
    (done : st.resume t f value error = .ok (resumption, st')) :
    ∃ q, (st.picture stage).Guarding t f q ∧ Neutral (some t) q (st'.picture stage) ∧
      Within t st st' ∧ (st'.picture stage).Awaits t f resumption.program ∧
      (st'.guard? f ≠ none → resumption.opened = none) ∧
      (error ≠ none → (st'.picture stage).Slack f) := by
  simp only [resume, bind_ok, frame_ok] at done
  obtain ⟨frame, found, done⟩ := done
  have code := guard?_of_get? found
  cases kind : frame.code with
  | host body =>
    rw [kind] at code done
    simp only [pure_ok, Prod.mk.injEq] at done
    obtain ⟨_, rfl⟩ := done
    exact plain_effect code rfl (.refl st)
  | guard r phase =>
    rw [kind] at code done
    simp only [bind_ok, pure_ok, Prod.mk.injEq] at done
    obtain ⟨⟨answer, st₁⟩, resumed, rfl, rfl⟩ := done
    have free : ∀ body, error = none → (phase = .start body ∧ st.owner r = none ∨
        ∃ value, phase = .waiting body value) → (st.picture stage).Idle body := by
      rintro body none' (⟨rfl, nobody⟩ | ⟨kept, rfl⟩)
      · exact idle none' (.inl ⟨code, nobody⟩)
      · exact idle none' (.inr ⟨kept, code⟩)
    obtain ⟨q, guarding, neutral, keeps, after, guard, answers, passed⟩ :=
      resumeGuard_effect (C := C) warded front code place free resumed
    refine ⟨q, guarding, neutral, keeps, fun {r' phase'} guard' => ?_, fun _ => rfl,
      fun some r' phase' guard' => ?_⟩
    · obtain ⟨rfl, rfl⟩ : r = r' ∧ after = phase' :=
        Prod.mk.inj (Option.some.inj (guard.symm.trans guard'))
      exact answers
    · obtain ⟨rfl, rfl⟩ : r = r' ∧ after = phase' :=
        Prod.mk.inj (Option.some.inj (guard.symm.trans guard'))
      rw [passed some]
      rfl
  | join child parked =>
    rw [kind] at code done
    simp only [bind_ok, pure_ok, Prod.mk.injEq] at done
    obtain ⟨⟨answer, st₁⟩, resumed, rfl, rfl⟩ := done
    obtain ⟨picture, keeps⟩ : st₁.picture stage = _ ∧ _ := resumeJoin_effect code resumed
    exact plain_effect code picture keeps
  | message a message delivered =>
    rw [kind] at code done
    obtain ⟨picture, keeps⟩ : st'.picture stage = _ ∧ _ := resumeMessage_effect code done
    exact plain_effect code picture keeps

end State

end Tasking
