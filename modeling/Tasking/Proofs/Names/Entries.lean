import Tasking.Proofs.Bypassing
import Tasking.Proofs.Names.Records

/-! # What a step does to registries

Code enters names and functions into a registry, or closes it, and nothing else ever changes one: a step leaves every
registry as it is but for the entry that its thread is about to make (`Focus.enters?`, `Config.enters_of_step`).  This
holds whatever code a host writes, wherever the code runs: in a frame, in a native function, in a handler, or in
something that one of these drives.
-/

namespace Tasking

variable {V C : Type}

/-- The entries that are for one registry. -/
def Registry.entriesIn {F : Type} (g : RegistryId) : Option (RegistryId × Entry F) → List (Entry F)
  | some (h, entry) => if h = g then [entry] else []
  | none => []

/-- What the code in focus is about to do to a registry. -/
def Focus.enters? : Focus V C → Option (RegistryId × Registry.Entry (Native V C))
  | .code (.ask (.intern g name) _) => some (g, .intern name)
  | .code (.ask (.closeRegistry g) _) => some (g, .close)
  | .code (.register g name native _) => some (g, .register name native)
  | _ => none

namespace State

variable {st st' st'' : State V C} {entry : Option (RegistryId × Registry.Entry (Native V C))} {t : TaskId} {f : FrameId}

/-- An entry is made, and nothing else happens to registries, except that there may be new ones.  Schedulers keep their
registries. -/
structure Enters (st : State V C) (entry : Option (RegistryId × Registry.Entry (Native V C))) (st' : State V C) :
    Prop where
  kept : ∀ g registry, st.registries.get? g = some registry →
    st'.registries.get? g = some ((Registry.entriesIn g entry).foldl Registry.enter registry)
  made : ∀ g registry, st.registries.get? g = none → st'.registries.get? g = some registry → registry = .new
  registryOf? : ∀ s g, st.registryOf? s = some g → st'.registryOf? s = some g

namespace Enters

theorem of_same (registries : st'.registries = st.registries) (registryOf? : ∀ s, st'.registryOf? s = st.registryOf? s) :
    Enters st none st' where
  kept g registry found := registries ▸ found
  made g registry missing found := by simp [registries, missing] at found
  registryOf? s g given := (registryOf? s).trans given

theorem refl (st : State V C) : Enters st none st := .of_same rfl fun _ => rfl

theorem of_modifyTask {change : Task V → Task V} (enters : Enters (st.modifyTask t change) entry st') :
    Enters st entry st' := ⟨enters.kept, enters.made, enters.registryOf?⟩

theorem of_bypasses (bypasses : Bypasses st st') : Enters st none st' :=
  .of_same bypasses.registries bypasses.registryOf?

/-- An entry is made in a registry that exists. -/
theorem modifyRegistry {g : RegistryId} {registry changed : Registry (Native V C)} {entry : Registry.Entry (Native V C)}
    (found : st.registries.get? g = some registry) (change : changed = registry.enter entry) :
    Enters st (some (g, entry)) (st.modifyRegistry g fun _ => changed) where
  kept h other known := by
    rw [State.modifyRegistry, Table.get?_modify]
    by_cases same : g = h
    · subst same
      obtain rfl := Option.some.inj (found.symm.trans known)
      simp [found, change, Registry.entriesIn]
    · rw [if_neg (Ne.symm same), known]
      simp [Registry.entriesIn, same]
  made h other missing there := by
    rw [State.modifyRegistry, Table.get?_modify] at there
    split at there
    · next same =>
      subst same
      simp [missing] at found
    · simp [missing] at there
  registryOf? _ _ := id

theorem unchanged {g : RegistryId} {registry : Registry (Native V C)} {entry : Registry.Entry (Native V C)}
    (found : st.registries.get? g = some registry) (same : registry.enter entry = registry) :
    Enters st (some (g, entry)) st where
  kept h other known := by
    rw [known]
    by_cases here : g = h
    · subst here
      obtain rfl := Option.some.inj (found.symm.trans known)
      simp [Registry.entriesIn, same]
    · simp [Registry.entriesIn, here]
  made h other missing there := by simp [missing] at there
  registryOf? _ _ := id

theorem close (g : RegistryId) : Enters st (some (g, .close)) (st.modifyRegistry g Registry.close) := by
  cases found : st.registries.get? g with
  | some registry => exact modifyRegistry found rfl
  | none =>
    have absent (h : RegistryId) : (st.registries.modify g Registry.close).get? h = st.registries.get? h := by
      rw [Table.get?_modify]
      split
      · next same => rw [same, found, Option.map_none]
      · rfl
    refine ⟨fun h registry known => ?_, fun h registry missing there => ?_, fun _ _ => id⟩
    · have apart : g ≠ h := by
        rintro rfl
        simp [found] at known
      rw [show (st.modifyRegistry g Registry.close).registries.get? h = _ from absent h, known]
      simp [Registry.entriesIn, apart]
    · rw [show (st.modifyRegistry g Registry.close).registries.get? h = _ from absent h, missing] at there
      cases there

theorem addRegistry : Enters st none st.addRegistry.2 where
  kept g registry found := by
    rw [State.addRegistry, Table.get?_add_eq, if_neg (Table.ne_next_of_get? found), found]
    rfl
  made g registry missing found := by
    rw [State.addRegistry, Table.get?_add_eq] at found
    split at found
    · exact (Option.some.inj found).symm
    · simp [missing] at found
  registryOf? _ _ := id

theorem addScheduler {settings : Settings} {g : RegistryId} {reply : Except HostError SchedulerId}
    (done : st.addScheduler settings g = .ok (reply, st')) : Enters st none st' := by
  obtain rfl | ⟨workers, rfl⟩ := addScheduler_ok done
  · exact .refl _
  refine ⟨fun h registry found => found, fun h registry missing found => ?_, fun s h given => ?_⟩
  · simp [missing] at found
  · obtain ⟨scheduler, found, same⟩ := Option.map_eq_some_iff.1 given
    rw [State.registryOf?, Table.get?_add_eq, if_neg (Table.ne_next_of_get? found), found, Option.map_some, same]

theorem resume {value : V} {error : Option (Error V)} {resumption : Resumption V C}
    (done : st.resume t f value error = .ok (resumption, st')) : Enters st none st' := by
  simp only [State.resume, bind_ok, frame_ok] at done
  obtain ⟨frame, found, done⟩ := done
  split at done
  · simp only [pure_ok, Prod.mk.injEq] at done
    exact done.2 ▸ .refl st
  · simp only [bind_ok, pure_ok, Prod.mk.injEq] at done
    obtain ⟨⟨answer, st₁⟩, resumed, _, rfl⟩ := done
    exact .of_bypasses (.resumeGuard resumed)
  · simp only [bind_ok, pure_ok, Prod.mk.injEq] at done
    obtain ⟨⟨answer, st₁⟩, resumed, _, rfl⟩ := done
    exact .of_bypasses (.resumeJoin resumed)
  · unfold State.resumeMessage at done
    split at done
    · simp only [pure_ok, Prod.mk.injEq] at done
      exact done.2 ▸ .refl st
    · split at done
      · simp only [pure_ok, Prod.mk.injEq] at done
        exact done.2 ▸ .of_same rfl fun _ => rfl
      · simp only [bind_ok] at done
        obtain ⟨actor, _, may, _, done⟩ := done
        split at done
        · simp only [pure_ok, Prod.mk.injEq] at done
          exact done.2 ▸ .of_same rfl fun _ => rfl
        · simp at done

variable [Inhabited V]

theorem serve {request : Request V C} {reply : request.Reply} {next : request.Reply → Program V C}
    (done : st.serve request = .ok (reply, st')) : Enters st (Focus.code (.ask request next)).enters? st' := by
  cases request with
  | newExclusive q payload | setPayload x payload =>
    obtain rfl : _ = st' := congrArg Prod.snd (pure_ok.1 done)
    exact .of_same rfl fun _ => rfl
  | newRegistry =>
    obtain rfl : _ = st' := congrArg Prod.snd (pure_ok.1 done)
    exact .addRegistry
  | newScheduler settings g => exact .addScheduler done
  | closeRegistry g =>
    obtain rfl : _ = st' := congrArg Prod.snd (pure_ok.1 done)
    exact .close g
  | intern g name =>
    simp only [State.serve, State.intern, bind_ok, registry_ok] at done
    obtain ⟨registry, found, done⟩ := done
    split at done
    · next symbol changed interned =>
      obtain rfl : _ = st' := congrArg Prod.snd (pure_ok.1 done)
      exact modifyRegistry found (by simp [Registry.enter, interned])
    · next refusal refused =>
      obtain rfl : _ = st' := congrArg Prod.snd (pure_ok.1 done)
      exact unchanged found (by simp [Registry.enter, refused])
  | _ => exact .of_bypasses (.serve trivial done)

omit [Inhabited V] in
theorem register {g : RegistryId} {name : String} {native : Native V C} {reply : Except HostError Symbol}
    {next : Except HostError Symbol → Program V C} (done : st.register g name native = .ok (reply, st')) :
    Enters st (Focus.code (.register g name native next)).enters? st' := by
  simp only [State.register, bind_ok, registry_ok, pure_ok, Prod.mk.injEq] at done
  obtain ⟨registry, found, _, rfl⟩ := done
  exact modifyRegistry found rfl

end Enters

end State

namespace Config

open State

variable [Inhabited V] {c config : Config V C} {st : State V C} {focus after : Focus V C}
  {stack : List (Activation V C)}

theorem enters_of_cancelNext {t : TaskId} {doomed : List FrameId} {target : FrameId} {value : V}
    (done : (⟨st, focus, stack⟩ : Config V C).cancelNext t doomed target value after = .ok config) :
    st.Enters none config.state := by
  cases doomed with
  | nil =>
    obtain rfl := pure_ok.1 done
    exact .of_same rfl fun _ => rfl
  | cons f rest =>
    obtain ⟨resumption, st', resumed, rfl⟩ := Crew.Sound.resumeFrame_ok
      (show (⟨st, focus, stack⟩ : Config V C).resumeFrame t f default (some .cancelled)
        (.cancel t rest target value after) = .ok config from done)
    exact .resume resumed

theorem enters_of_does (idle : c.focus.enters? = none) (does : Does c config) : c.state.Enters none config.state := by
  cases does with
  | serves served => exact idle ▸ .serve served
  | registers => cases idle
  | newFrame | newActor | passes | rests | hands | opens | closes | returns | lands | unwinds =>
    exact .of_same rfl fun _ => rfl
  | begins detours busy settled taken begun =>
    have begins := Bypasses.beginRun begun
    obtain ⟨s, taken⟩ | ⟨_, rfl⟩ := taken
    · exact .of_bypasses ((Bypasses.takeReady taken).trans begins)
    · exact .of_bypasses begins
  | resumes found top resumed => exact .of_modifyTask (.resume resumed)
  | leaps found top path resumed => exact .of_modifyTask (.resume resumed)
  | cancels resumed => exact .resume resumed
  | suspends parked => exact .of_bypasses ((Bypasses.modifyTask _ _ _).trans (.park parked))
  | finishes ends found top link finished =>
    exact .of_bypasses (((Bypasses.modifyTask _ _ _).trans (.modifyTask _ _ _)).trans (.finish finished))

/-- A step makes the entry that its thread is about to make, and does nothing else to registries. -/
theorem enters_of_step (step : c.step = .ok config) : c.state.Enters c.focus.enters? config.state := by
  by_cases registers : ∃ g name native next, c.focus = .code (.register g name native next)
  · obtain ⟨g, name, native, next, focus⟩ := registers
    obtain ⟨st, _, stack⟩ := c
    subst focus
    simp only [Config.step, stepCode, bind_ok, pure_ok] at step
    obtain ⟨⟨reply, st'⟩, registered, rfl⟩ := step
    exact .register registered
  by_cases asks : ∃ request next, c.focus = .code (.ask request next)
  · obtain ⟨request, next, focus⟩ := asks
    obtain ⟨st, _, stack⟩ := c
    subst focus
    simp only [Config.step, stepCode, bind_ok, pure_ok] at step
    obtain ⟨⟨reply, st'⟩, served, rfl⟩ := step
    exact .serve served
  have idle : c.focus.enters? = none := by
    unfold Focus.enters?
    split
    · next focus => exact absurd ⟨_, _, focus⟩ asks
    · next focus => exact absurd ⟨_, _, focus⟩ asks
    · next focus => exact absurd ⟨_, _, _, _, focus⟩ registers
    · rfl
  rw [idle]
  by_cases tame : ∀ t target value next, c.focus ≠ .code (.unwind t target value next)
  · exact enters_of_does idle (does_of_step tame step)
  · push Not at tame
    obtain ⟨t, target, value, next, focus⟩ := tame
    obtain ⟨st, _, stack⟩ := c
    subst focus
    simp only [Config.step, stepCode, unwind, bind_ok, check_ok] at step
    obtain ⟨task, _, _, step⟩ := step
    split at step
    · exact enters_of_cancelNext step
    · simp at step

end Config

end Tasking
