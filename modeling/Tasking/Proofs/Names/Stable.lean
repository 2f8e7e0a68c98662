import Tasking.Proofs.Names.Entries

/-! # Names keep their symbols

As long as a registry is open, its names are numbered from zero in the order in which they were first seen, a symbol once
given stays, and the function under a name is the first one that somebody put there (`State.Knows`).  Once it was closed,
it refuses everything for good (`State.Refuses`).  `Crew.Run.names_stay` says so for every registry and every moment of
a run, whatever code does: which names and functions a registry has follows from the entries that were made in it.
-/

namespace Tasking

variable {V C : Type}

namespace State

variable [Inhabited V] {st : State V C} {g : RegistryId} {registry : Registry (Native V C)} {names : List String}
  {functions : List (String × Native V C)}

/-- An open registry answers out of these names and functions.  What is only looked up adds nothing, a name that is known
is interned without a change, and so is a function that is refused. -/
structure Knows (st : State V C) (g : RegistryId) (names : List String) (functions : List (String × Native V C)) :
    Prop where
  nodup : names.Nodup
  view : st.serve (.registry g) = .ok (⟨true, names.length, (functions.map Prod.fst).eraseDups.length⟩, st)
  lookup : ∀ name, ∃ found, st.serve (.lookup g name) = .ok (.ok found, st) ∧
    ∀ symbol : Symbol, found = some symbol ↔ names[symbol.index.toNat]? = some name
  nameOf : ∀ symbol : Symbol, st.serve (.nameOf g symbol) = .ok (.ok names[symbol.index.toNat]?, st)
  intern : ∀ name, (withName names name).length ≤ UInt32.size →
    ∃ (symbol : Symbol) (st' : State V C), st.serve (.intern g name) = .ok (.ok symbol, st') ∧
      (withName names name)[symbol.index.toNat]? = some name ∧ (name ∈ names → st' = st)
  register : ∀ name native, (withName names name).length ≤ UInt32.size →
    match functions.lookup name with
    | some _ => st.register g name native = .ok (.error (.duplicateNative name), st)
    | none => ∃ (symbol : Symbol) (st' : State V C), st.register g name native = .ok (.ok symbol, st') ∧
        (withName names name)[symbol.index.toNat]? = some name
  interned : ∀ name native, functions.lookup name = some native → name ∈ names
  native : ∀ name, st.serve (.findNative g name) = .ok ((match functions.lookup name with
    | some _ => .ok ()
    | none => .error (.unknownNative name)), st)
  call : ∀ name context arguments next stack,
    Config.step ⟨st, .code (.callNative g name context arguments next), stack⟩ = .ok (match functions.lookup name with
      | some native => ⟨st, .code (native context arguments), .call (fun answer => next (.ok answer)) :: stack⟩
      | none => ⟨st, .code (next (.error (.unknownNative name))), stack⟩)

/-- A closed registry has nothing, and refuses everything. -/
structure Refuses (st : State V C) (g : RegistryId) : Prop where
  view : st.serve (.registry g) = .ok (⟨false, 0, 0⟩, st)
  lookup : ∀ name, st.serve (.lookup g name) = .ok (.error .registryClosed, st)
  nameOf : ∀ symbol, st.serve (.nameOf g symbol) = .ok (.error .registryClosed, st)
  intern : ∀ name, st.serve (.intern g name) = .ok (.error .registryClosed, st)
  register : ∀ name native, st.register g name native = .ok (.error .registryClosed, st)
  native : ∀ name, st.serve (.findNative g name) = .ok (.error .registryClosed, st)
  call : ∀ name context arguments next stack,
    Config.step ⟨st, .code (.callNative g name context arguments next), stack⟩ =
      .ok ⟨st, .code (next (.error .registryClosed)), stack⟩

omit [Inhabited V] in
theorem modifyRegistry_self (found : st.registries.get? g = some registry) :
    (st.modifyRegistry g fun _ => registry) = st := by
  rw [modifyRegistry, Table.modify_self found rfl]

theorem knows_of_records (found : st.registries.get? g = some registry) (distinct : names.Nodup)
    (records : registry.Records names functions) : st.Knows g names functions := by
  have here : st.registry g = .ok registry := registry_ok.2 found
  refine ⟨distinct, ?_, fun name => ?_, fun symbol => ?_, fun name room => ?_, fun name native room => ?_,
    fun name native known => ?_, fun name => ?_, fun name context arguments next stack => ?_⟩
  · exact bind_ok.2 ⟨registry, here, by rw [records.view]; rfl⟩
  · obtain ⟨symbol?, replies, places⟩ := records.lookup name
    exact ⟨symbol?, bind_ok.2 ⟨registry, here, by rw [replies]; rfl⟩, places⟩
  · exact bind_ok.2 ⟨registry, here, by rw [records.nameOf]; rfl⟩
  · obtain ⟨symbol, registry', interned, place, _, same⟩ := records.intern room
    refine ⟨symbol, _, bind_ok.2 ⟨registry, here, by rw [interned]; rfl⟩, place, fun known => ?_⟩
    rw [same known]
    exact modifyRegistry_self found
  · have enters : st.register g name native =
        .ok ((registry.register name native).1, st.modifyRegistry g fun _ => (registry.register name native).2) :=
      bind_ok.2 ⟨registry, here, rfl⟩
    have replies := (records.register native room).2
    cases known : functions.lookup name with
    | some first =>
      simp only [known] at replies
      rw [enters, replies, modifyRegistry_self found]
    | none =>
      simp only [known] at replies
      obtain ⟨symbol, reply, place⟩ := replies
      exact ⟨symbol, _, by rw [enters, reply], place⟩
  · by_contra new
    simp [records.lookup_eq_none new] at known
  · refine bind_ok.2 ⟨registry, here, ?_⟩
    rw [records.native]
    cases functions.lookup name <;> rfl
  · refine bind_ok.2 ⟨registry, here, ?_⟩
    rw [records.native]
    cases functions.lookup name <;> rfl

theorem refuses_of_closed (found : st.registries.get? g = some registry) (closed : registry.tables = none) :
    st.Refuses g := by
  obtain ⟨_⟩ := registry
  subst closed
  have here : st.registry g = .ok ⟨none⟩ := registry_ok.2 found
  exact ⟨bind_ok.2 ⟨_, here, rfl⟩, fun name => bind_ok.2 ⟨_, here, rfl⟩, fun symbol => bind_ok.2 ⟨_, here, rfl⟩,
    fun name => bind_ok.2 ⟨_, here, rfl⟩,
    fun name native => bind_ok.2 ⟨_, here, by simp only [Registry.register, modifyRegistry_self found]; rfl⟩,
    fun name => bind_ok.2 ⟨_, here, rfl⟩, fun name context arguments next stack => bind_ok.2 ⟨_, here, rfl⟩⟩

end State

namespace Crew

variable [Inhabited V] {allowed : Crew V C → Agent V C → Prop}

/-- One step of a crew, together with the entry that it makes in a registry, if it makes one. -/
inductive Enters : Crew V C → Option (RegistryId × Registry.Entry (Native V C)) → Crew V C → Prop where
  | act {st : State V C} {before after : List (Agent V C)} {a : Agent V C} {config : Config V C}
      (step : (a.config st).step = .ok config) :
      Enters ⟨st, before ++ a :: after⟩ a.focus.enters? ⟨config.state, before ++ ⟨config.focus, config.stack⟩ :: after⟩
  | join {st : State V C} {agents : List (Agent V C)} {a : Agent V C} (new : a.IsNew) :
      Enters ⟨st, agents⟩ none ⟨st, agents ++ [a]⟩
  | lapse {st : State V C} {before after : List (Agent V C)} {condition : Until} {limit : Option Nat}
      {next : Program V C} {stack : List (Activation V C)} :
      Enters ⟨st, before ++ ⟨.waiting condition limit next, stack⟩ :: after⟩ none
        ⟨st, before ++ ⟨.code next, stack⟩ :: after⟩
  | switch {st : State V C} {agents : List (Agent V C)} (thread : Thread) :
      Enters ⟨st, agents⟩ none ⟨{ st with running := thread }, agents⟩

variable {c c' : Crew V C} {entry : Option (RegistryId × Registry.Entry (Native V C))}

theorem Step.enters {label : Option (TaskId × FrameId)} (step : Step allowed c label c') :
    ∃ entry, Enters c entry c' := by
  cases step with
  | act _ step => exact ⟨_, .act step⟩
  | join new => exact ⟨_, .join new⟩
  | lapse => exact ⟨_, .lapse⟩
  | switch thread => exact ⟨_, .switch thread⟩

theorem Enters.state (enters : Enters c entry c') : c.state.Enters entry c'.state := by
  cases enters with
  | act step => exact Config.enters_of_step step
  | join | lapse | switch => exact .of_same rfl fun _ => rfl

namespace Run

variable (run : Run V C allowed)

/-- The entries that the steps of a run make. -/
def Enters (entry : Nat → Option (RegistryId × Registry.Entry (Native V C))) : Prop :=
  ∀ i < run.length, Crew.Enters (run.crew i) (entry i) (run.crew (i + 1))

/-- What was entered in a registry in so many steps, since it was made. -/
def entries (entry : Nat → Option (RegistryId × Registry.Entry (Native V C))) (g : RegistryId) :
    Nat → List (Registry.Entry (Native V C))
  | 0 => []
  | i + 1 =>
    if ((run.crew i).state.registries.get? g).isSome then entries entry g i ++ Registry.entriesIn g (entry i) else []

variable {run} {entry : Nat → Option (RegistryId × Registry.Entry (Native V C))} {g : RegistryId} {i j : Nat}
  {registry : Registry (Native V C)}

theorem exists_enters (run : Run V C allowed) : ∃ entry, run.Enters entry := by
  have exists_each : ∀ i, ∃ entry, i < run.length → Crew.Enters (run.crew i) entry (run.crew (i + 1)) := by
    intro i
    by_cases bound : i < run.length
    · obtain ⟨entry, enters⟩ := (run.steps i bound).enters
      exact ⟨entry, fun _ => enters⟩
    · exact ⟨none, fun within => absurd within bound⟩
  choose entry enters using exists_each
  exact ⟨entry, enters⟩

/-- A registry is made of what was entered in it. -/
theorem registry_eq (enters : run.Enters entry) (g : RegistryId) : ∀ i ≤ run.length, ∀ registry,
    (run.crew i).state.registries.get? g = some registry →
      registry = (run.entries entry g i).foldl Registry.enter .new := by
  intro i
  induction i with
  | zero =>
    intro _ registry found
    obtain ⟨parallelism, starts⟩ := run.starts
    simp [starts, initial, State.initial] at found
  | succ i inductionHypothesis =>
    intro bound registry found
    have state := (enters i (by omega)).state
    cases before : (run.crew i).state.registries.get? g with
    | none =>
      rw [state.made g registry before found, entries, before]
      rfl
    | some old =>
      have now := state.kept g old before
      rw [found] at now
      rw [entries, before, Option.isSome_some, if_pos rfl, List.foldl_append,
        ← inductionHypothesis (by omega) old before]
      exact Option.some.inj now

/-- Registries stay, and so does what was entered in them. -/
theorem entries_mono (enters : run.Enters entry) (order : i ≤ j) (bound : j ≤ run.length)
    (found : ((run.crew i).state.registries.get? g).isSome = true) :
    ((run.crew j).state.registries.get? g).isSome = true ∧ run.entries entry g i <+: run.entries entry g j := by
  induction j, order using Nat.le_induction with
  | base => exact ⟨found, List.prefix_rfl⟩
  | succ j order inductionHypothesis =>
    obtain ⟨there, first⟩ := inductionHypothesis (by omega)
    obtain ⟨registry, known⟩ := Option.isSome_iff_exists.1 there
    refine ⟨by simp [(enters j (by omega)).state.kept g registry known], ?_⟩
    rw [entries, if_pos there]
    exact first.trans (List.prefix_append _ _)

theorem registryOf?_stays (order : i ≤ j) (bound : j ≤ run.length) {s : SchedulerId}
    (given : (run.crew i).state.registryOf? s = some g) : (run.crew j).state.registryOf? s = some g := by
  obtain ⟨entry, enters⟩ := run.exists_enters
  induction j, order using Nat.le_induction with
  | base => exact given
  | succ j order inductionHypothesis =>
    exact (enters j (by omega)).state.registryOf? s g (inductionHypothesis (by omega))

/-- What a registry has follows from what was entered in it.  While it is open, and no more names were seen than there are
symbols, the names are numbered in the order in which they were seen first, a name and the first function under it stay
what they are, and nothing that is only looked up, and no function that is refused, adds anything.  Once it was closed, it
refuses everything from then on.  Schedulers that share it share it throughout. -/
theorem names_stay (run : Run V C allowed) : (∃ entry, run.Enters entry) ∧
    ∀ {entry}, run.Enters entry → ∀ g i j, i ≤ j → j ≤ run.length →
      ((run.crew i).state.registries.get? g).isSome = true →
        (Registry.Entry.close ∉ run.entries entry g j →
          (Registry.namesOf (run.entries entry g j)).length ≤ UInt32.size →
            (run.crew j).state.Knows g (Registry.namesOf (run.entries entry g j))
              (Registry.functionsOf (run.entries entry g j))) ∧
        Registry.namesOf (run.entries entry g i) <+: Registry.namesOf (run.entries entry g j) ∧
        (∀ name native, (Registry.functionsOf (run.entries entry g i)).lookup name = some native →
          (Registry.functionsOf (run.entries entry g j)).lookup name = some native) ∧
        (Registry.Entry.close ∈ run.entries entry g i → (run.crew j).state.Refuses g) ∧
        ∀ s, (run.crew i).state.registryOf? s = some g → (run.crew j).state.registryOf? s = some g := by
  refine ⟨run.exists_enters, fun {entry} enters g i j order bound made => ?_⟩
  obtain ⟨there, first⟩ := entries_mono enters order bound made
  obtain ⟨registry, found⟩ := Option.isSome_iff_exists.1 there
  have made := run.registry_eq enters g j bound registry found
  refine ⟨fun opens room => ?_, Registry.namesOf_mono first, fun name native => Registry.lookup_functionsOf_mono first,
    fun closed => ?_, fun s => registryOf?_stays order bound⟩
  · exact State.knows_of_records found (Registry.nodup_namesOf _) (made ▸ Registry.records_foldl opens room)
  · exact State.refuses_of_closed found (made ▸ Registry.tables_of_close (first.subset closed))

end Run

end Crew

end Tasking
