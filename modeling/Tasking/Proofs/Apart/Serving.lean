import Tasking.Proofs.Apart.Frames

/-! # Requests that are served alike

Like requests get like replies and lead to states that are alike (`Likeness.Mirrors.serve`).  Registries that
several groups share are only read, so they stay as they are; in a registry of its own a group may do as it
likes.
-/

namespace Tasking

variable {V C : Type}

namespace State

/-- An operation that only leads to another state. -/
theorem served_ok {x : Attempt V C (State V C)} {u : Unit} {st₁ : State V C} :
    (do return ((), ← x)) = (.ok (u, st₁) : Attempt V C (Unit × State V C)) ↔ x = .ok st₁ := by
  cases x <;> simp [bind, Except.bind, pure, Except.pure]

/-- An operation that only looks. -/
theorem seen_ok {α β : Type} {st st₁ : State V C} {x : Attempt V C α} {f : α → β} {b : β} :
    (do return (f (← x), st)) = (.ok (b, st₁) : Attempt V C (β × State V C)) ↔
      ∃ a, x = .ok a ∧ f a = b ∧ st = st₁ := by
  cases x <;> simp [bind, Except.bind, pure, Except.pure]

/-- A frame that a request makes a caller exists. -/
def KnowsCaller (st : State V C) : Request V C → Prop
  | .attach _ (some g) => (st.frames.get? g).isSome = true
  | _ => True

end State

namespace Likeness

variable [Inhabited V] {L : Likeness V C} {st st' st₁ st₁' : State V C} {home home' : SchedulerId}
  {g g' : RegistryId} {name : String} {function function' : Native V C}

open State

/-! ## Registries -/

namespace Names

variable {tables tables' : Registry.Tables (Native V C)} (names : L.Names tables tables')
include names

theorem intern (name : String) : (tables.intern name).1 = (tables'.intern name).1 ∧
    L.Names (tables.intern name).2 (tables'.intern name).2 := by
  unfold Registry.Tables.intern
  rw [← names.symbols, ← names.names]
  cases tables.symbols[name]? with
  | some symbol => exact ⟨rfl, names⟩
  | none => exact ⟨rfl, rfl, rfl, names.natives, names.count⟩

theorem mem_natives (symbol : Symbol) : symbol ∈ tables.natives ↔ symbol ∈ tables'.natives := by
  have related := isSome_of_related (names.natives symbol)
  rw [← Std.HashMap.isSome_getElem?_iff_mem, ← Std.HashMap.isSome_getElem?_iff_mem, related]

theorem insert (symbol : Symbol) (alike : L.Natives function function') :
    L.Names { tables with natives := tables.natives.insert symbol function }
      { tables' with natives := tables'.natives.insert symbol function' } where
  names := names.names
  symbols := names.symbols
  natives other := by
    simp only [Std.HashMap.getElem?_insert]
    split
    · exact .some alike
    · exact names.natives other
  count := by
    simp only [Std.HashMap.size_insert, names.mem_natives, names.count]

theorem native (name : String) : Option.Rel L.Natives (tables.native? name) (tables'.native? name) := by
  unfold Registry.Tables.native?
  rw [← names.symbols]
  cases tables.symbols[name]? with
  | none => exact .none
  | some symbol => exact names.natives symbol

end Names

namespace Registries

variable {registry registry' : Registry (Native V C)} (registries : L.Registries registry registry')
include registries

/-- Both are closed, or both are open with like tables. -/
theorem cases_tables : registry = ⟨none⟩ ∧ registry' = ⟨none⟩ ∨
    ∃ tables tables', registry = ⟨some tables⟩ ∧ registry' = ⟨some tables'⟩ ∧ L.Names tables tables' := by
  obtain ⟨tables⟩ := registry
  obtain ⟨tables'⟩ := registry'
  cases registries with
  | none => exact .inl ⟨rfl, rfl⟩
  | some names => exact .inr ⟨_, _, rfl, rfl, names⟩

theorem intern (name : String) : Replies Eq (fun p p' => p.1 = p'.1 ∧ L.Registries p.2 p'.2)
    (registry.intern name) (registry'.intern name) := by
  obtain ⟨rfl, rfl⟩ | ⟨tables, tables', rfl, rfl, names⟩ := registries.cases_tables
  · exact .error rfl
  · exact .ok ⟨(names.intern name).1, .some (names.intern name).2⟩

theorem register (name : String) (alike : L.Natives function function') :
    (registry.register name function).1 = (registry'.register name function').1 ∧
      L.Registries (registry.register name function).2 (registry'.register name function').2 := by
  obtain ⟨rfl, rfl⟩ | ⟨tables, tables', rfl, rfl, names⟩ := registries.cases_tables
  · exact ⟨rfl, registries⟩
  · obtain ⟨same, interned⟩ := names.intern name
    simp only [Registry.register, same, interned.mem_natives]
    split
    · exact ⟨rfl, .some interned⟩
    · exact ⟨rfl, .some (interned.insert _ alike)⟩

theorem native (name : String) : Replies Eq L.Natives (registry.native name) (registry'.native name) := by
  obtain ⟨rfl, rfl⟩ | ⟨tables, tables', rfl, rfl, names⟩ := registries.cases_tables
  · exact .error rfl
  · have related := names.native name
    simp only [Registry.native, Registry.opened]
    cases found : tables.native? name with
    | none =>
      rw [none_of_related related found]
      exact .error rfl
    | some function =>
      obtain ⟨function', found', alike⟩ := exists_of_related related found
      rw [found']
      exact .ok alike

theorem lookup (name : String) : registry.lookup name = registry'.lookup name := by
  obtain ⟨rfl, rfl⟩ | ⟨tables, tables', rfl, rfl, names⟩ := registries.cases_tables
  · rfl
  · simp only [Registry.lookup, Registry.opened, Except.map, names.symbols]

theorem nameOf (symbol : Symbol) : registry.nameOf symbol = registry'.nameOf symbol := by
  obtain ⟨rfl, rfl⟩ | ⟨tables, tables', rfl, rfl, names⟩ := registries.cases_tables
  · rfl
  · simp only [Registry.nameOf, Registry.opened, Except.map, names.names]

theorem view : registry.view = registry'.view := by
  obtain ⟨rfl, rfl⟩ | ⟨tables, tables', rfl, rfl, names⟩ := registries.cases_tables
  · rfl
  · simp [Registry.view, Registry.isOpen, Registry.symbolCount, Registry.nativeCount, names.names, names.count]

end Registries

namespace Mirrors

variable (mirrors : L.Mirrors st st')
include mirrors

theorem intern {reply reply' : Except HostError Symbol} (same : L.id g g') (own : L.holds .registry g.number)
    (done : st.intern g name = .ok (reply, st₁)) (done' : st'.intern g' name = .ok (reply', st₁')) :
    reply = reply' ∧ L.Moves st st' st₁ st₁' := by
  simp only [State.intern, bind_ok] at done done'
  obtain ⟨registry, found, done⟩ := done
  obtain ⟨registry', found', done'⟩ := done'
  have replies := (mirrors.registries.get same (find_ok.1 found) (find_ok.1 found')).intern name
  revert replies done done'
  generalize registry.intern name = y, registry'.intern name = y'
  intro done done' replies
  cases replies with
  | error equal =>
    simp only [pure_ok, Prod.mk.injEq] at done done'
    obtain ⟨rfl, rfl⟩ := done
    obtain ⟨rfl, rfl⟩ := done'
    exact ⟨congrArg _ equal, mirrors.moves⟩
  | ok alike =>
    simp only [pure_ok, Prod.mk.injEq] at done done'
    obtain ⟨rfl, rfl⟩ := done
    obtain ⟨rfl, rfl⟩ := done'
    exact ⟨congrArg _ alike.1, mirrors.modifyRegistry same own fun _ _ _ _ _ => alike.2⟩

theorem register {reply reply' : Except HostError Symbol} (same : L.id g g') (own : L.holds .registry g.number)
    (alike : L.Natives function function') (done : st.register g name function = .ok (reply, st₁))
    (done' : st'.register g' name function' = .ok (reply', st₁')) : reply = reply' ∧ L.Moves st st' st₁ st₁' := by
  simp only [State.register, bind_ok, pure_ok, Prod.mk.injEq] at done done'
  obtain ⟨registry, found, rfl, rfl⟩ := done
  obtain ⟨registry', found', rfl, rfl⟩ := done'
  obtain ⟨equal, registries⟩ := (mirrors.registries.get same (find_ok.1 found) (find_ok.1 found')).register name alike
  exact ⟨equal, mirrors.modifyRegistry same own fun _ _ _ _ _ => registries⟩

theorem newActor {v v' : V} {handler handler' : Handler V C} (first : L.value v v')
    (alike : L.Handlers handler handler') (fresh : L.Fresh st (st.addActor v handler).2) :
    L.id (st.addActor v handler).1 (st'.addActor v' handler').1 ∧
      L.Moves st st' (st.addActor v handler).2 (st'.addActor v' handler').2 := by
  have resource := mirrors.addResource (a := .new none) (b := .new none)
    (fresh.next .resource (by simp [State.size, State.addActor, State.addResource, State.addExclusive]))
    ⟨rfl, .none, .empty⟩
  have behind := mirrors.next (fresh.next .resource
    (by simp [State.size, State.addActor, State.addResource, State.addExclusive]))
  have later := fresh.later resource.avoids.size
  have exclusive := resource.mirrors.addExclusive (a := .new st.resources.next v)
    (b := .new st'.resources.next v')
    (later.next .exclusive (by simp [State.size, State.addActor, State.addResource, State.addExclusive]))
    ⟨behind, first, rfl⟩
  have guarded := resource.mirrors.next (later.next .exclusive
    (by simp [State.size, State.addActor, State.addResource, State.addExclusive]))
  have last := later.later exclusive.avoids.size
  have actor := exclusive.mirrors.addActor (a := ⟨⟨st.exclusives.size + 1⟩, handler⟩)
    (b := ⟨⟨st'.exclusives.size + 1⟩, handler'⟩)
    (last.next .actor (by simp [State.size, State.addActor, State.addResource, State.addExclusive]))
    ⟨guarded, alike⟩
  have named := exclusive.mirrors.next (last.next .actor
    (by simp [State.size, State.addActor, State.addResource, State.addExclusive]))
  exact ⟨named, (resource.trans exclusive).trans actor⟩

/-- Like requests are served alike. -/
theorem serve (enrolled : st.Enrolled home) (enrolled' : st'.Enrolled home') (rooted' : st'.Rooted)
    {q q' : Request V C} {reply : q.Reply} {reply' : q'.Reply} {alike : q.Reply → q'.Reply → Prop}
    (asks : L.Asks q q' alike) (known : st.KnowsCaller q) (done : st.serve q = .ok (reply, st₁))
    (done' : st'.serve q' = .ok (reply', st₁')) (fresh : L.Fresh st st₁) :
    alike reply reply' ∧ L.Moves st st' st₁ st₁' := by
  cases asks with
  | spawn scheduler entry =>
    exact mirrors.spawn scheduler entry (fresh .task) done done'
  | start task => exact ⟨trivial, mirrors.start task (served_ok.1 done) (served_ok.1 done')⟩
  | ready task => exact ⟨trivial, mirrors.ready task (served_ok.1 done) (served_ok.1 done')⟩
  | yield task => exact ⟨trivial, mirrors.yield task (served_ok.1 done) (served_ok.1 done')⟩
  | waitExternal task => exact ⟨trivial, mirrors.waitExternal task (served_ok.1 done) (served_ok.1 done')⟩
  | pause task frame => exact ⟨trivial, mirrors.pause task frame (served_ok.1 done) (served_ok.1 done')⟩
  | move task life => exact mirrors.move task done done'
  | waitFor task child => exact mirrors.waitFor enrolled enrolled' task child done done'
  | task task =>
    obtain ⟨_, found, rfl, rfl⟩ := seen_ok.1 done
    obtain ⟨_, found', rfl, rfl⟩ := seen_ok.1 done'
    exact ⟨mirrors.tasks.get task (find_ok.1 found) (find_ok.1 found'), mirrors.moves⟩
  | newGuard resource body =>
    obtain ⟨rfl, rfl⟩ := Prod.mk.inj (pure_ok.1 done)
    obtain ⟨rfl, rfl⟩ := Prod.mk.inj (pure_ok.1 done')
    exact mirrors.addGuard resource body fresh
  | newJoin child =>
    obtain ⟨rfl, rfl⟩ := Prod.mk.inj (pure_ok.1 done)
    obtain ⟨rfl, rfl⟩ := Prod.mk.inj (pure_ok.1 done')
    exact mirrors.addJoin child fresh
  | newMessage actor message => exact mirrors.addMessage actor message done done' fresh
  | attach frame caller =>
    refine ⟨trivial, mirrors.attach frame caller ?_ (served_ok.1 done) (served_ok.1 done')⟩
    rintro g rfl
    exact known
  | frame frame =>
    obtain ⟨_, seen, rfl, rfl⟩ := seen_ok.1 done
    obtain ⟨_, seen', rfl, rfl⟩ := seen_ok.1 done'
    exact ⟨mirrors.frameView rooted' frame seen seen', mirrors.moves⟩
  | newResource name =>
    obtain ⟨rfl, rfl⟩ := Prod.mk.inj (pure_ok.1 done)
    obtain ⟨rfl, rfl⟩ := Prod.mk.inj (pure_ok.1 done')
    have mine := fresh.next .resource (by simp [State.size])
    exact ⟨mirrors.next mine, mirrors.addResource mine ⟨rfl, .none, .empty⟩⟩
  | tryAcquire resource task => exact mirrors.tryAcquire resource task done done'
  | acquire resource task => exact mirrors.acquire enrolled enrolled' resource task done done'
  | release resource task => exact ⟨trivial, mirrors.release resource (served_ok.1 done) (served_ok.1 done')⟩
  | resource resource =>
    obtain ⟨_, found, rfl, rfl⟩ := seen_ok.1 done
    obtain ⟨_, found', rfl, rfl⟩ := seen_ok.1 done'
    exact ⟨mirrors.resources.get resource (find_ok.1 found) (find_ok.1 found'), mirrors.moves⟩
  | findCycle task target =>
    obtain ⟨rfl, rfl⟩ := Prod.mk.inj (pure_ok.1 done)
    obtain ⟨rfl, rfl⟩ := Prod.mk.inj (pure_ok.1 done')
    exact ⟨mirrors.findCycle enrolled enrolled' task target, mirrors.moves⟩
  | newExclusive resource payload =>
    obtain ⟨rfl, rfl⟩ := Prod.mk.inj (pure_ok.1 done)
    obtain ⟨rfl, rfl⟩ := Prod.mk.inj (pure_ok.1 done')
    have mine := fresh.next .exclusive (by simp [State.size])
    exact ⟨mirrors.next mine, mirrors.addExclusive mine ⟨resource, payload, rfl⟩⟩
  | exclusive exclusive =>
    obtain ⟨_, found, rfl, rfl⟩ := seen_ok.1 done
    obtain ⟨_, found', rfl, rfl⟩ := seen_ok.1 done'
    exact ⟨mirrors.exclusives.get exclusive (find_ok.1 found) (find_ok.1 found'), mirrors.moves⟩
  | setPayload exclusive payload =>
    obtain ⟨_, rfl⟩ := Prod.mk.inj (pure_ok.1 done)
    obtain ⟨_, rfl⟩ := Prod.mk.inj (pure_ok.1 done')
    exact ⟨trivial, mirrors.modifyExclusive exclusive fun _ _ alike => { alike with payload := payload }⟩
  | actorState actor =>
    obtain ⟨_, found, rfl, rfl⟩ := seen_ok.1 done
    obtain ⟨_, found', rfl, rfl⟩ := seen_ok.1 done'
    exact ⟨(mirrors.actors.get actor (find_ok.1 found) (find_ok.1 found')).state, mirrors.moves⟩
  | newRegistry =>
    obtain ⟨rfl, rfl⟩ := Prod.mk.inj (pure_ok.1 done)
    obtain ⟨rfl, rfl⟩ := Prod.mk.inj (pure_ok.1 done')
    have mine := fresh.next .registry (by simp [State.size])
    exact ⟨mirrors.next mine, mirrors.addRegistry mine (.some ⟨rfl, rfl, fun _ => by simp [Registry.Tables.empty], rfl⟩)⟩
  | intern registry own name => exact mirrors.intern registry own done done'
  | lookup registry name =>
    obtain ⟨_, found, rfl, rfl⟩ := seen_ok.1 done
    obtain ⟨_, found', rfl, rfl⟩ := seen_ok.1 done'
    exact ⟨(mirrors.registries.get registry (find_ok.1 found) (find_ok.1 found')).lookup name, mirrors.moves⟩
  | nameOf registry symbol =>
    obtain ⟨_, found, rfl, rfl⟩ := seen_ok.1 done
    obtain ⟨_, found', rfl, rfl⟩ := seen_ok.1 done'
    exact ⟨(mirrors.registries.get registry (find_ok.1 found) (find_ok.1 found')).nameOf symbol, mirrors.moves⟩
  | findNative registry name =>
    obtain ⟨_, found, rfl, rfl⟩ := seen_ok.1 done
    obtain ⟨_, found', rfl, rfl⟩ := seen_ok.1 done'
    refine ⟨?_, mirrors.moves⟩
    have natives := (mirrors.registries.get registry (find_ok.1 found) (find_ok.1 found')).native name
    revert natives
    generalize Registry.native _ name = y, Registry.native _ name = y'
    intro natives
    cases natives with
    | error same => rw [same]
    | ok _ => rfl
  | closeRegistry registry own =>
    obtain ⟨_, rfl⟩ := Prod.mk.inj (pure_ok.1 done)
    obtain ⟨_, rfl⟩ := Prod.mk.inj (pure_ok.1 done')
    exact ⟨trivial, mirrors.modifyRegistry registry own fun _ _ _ _ _ => .none⟩
  | registry registry =>
    obtain ⟨_, found, rfl, rfl⟩ := seen_ok.1 done
    obtain ⟨_, found', rfl, rfl⟩ := seen_ok.1 done'
    exact ⟨(mirrors.registries.get registry (find_ok.1 found) (find_ok.1 found')).view, mirrors.moves⟩
  | thread =>
    obtain ⟨rfl, rfl⟩ := Prod.mk.inj (pure_ok.1 done)
    obtain ⟨rfl, rfl⟩ := Prod.mk.inj (pure_ok.1 done')
    exact ⟨mirrors.running, mirrors.moves⟩
  | newCell content =>
    obtain ⟨rfl, rfl⟩ := Prod.mk.inj (pure_ok.1 done)
    obtain ⟨rfl, rfl⟩ := Prod.mk.inj (pure_ok.1 done')
    have mine := fresh.next .cell (by simp [State.size])
    exact ⟨mirrors.next mine, mirrors.addCell mine content⟩
  | read cell =>
    obtain ⟨_, found, rfl, rfl⟩ := seen_ok.1 done
    obtain ⟨_, found', rfl, rfl⟩ := seen_ok.1 done'
    exact ⟨mirrors.cells.get cell (find_ok.1 found) (find_ok.1 found'), mirrors.moves⟩
  | write cell content =>
    obtain ⟨_, rfl⟩ := Prod.mk.inj (pure_ok.1 done)
    obtain ⟨_, rfl⟩ := Prod.mk.inj (pure_ok.1 done')
    exact ⟨trivial, mirrors.modifyCell cell fun _ _ _ => content⟩
  | update cell change =>
    obtain ⟨_, rfl⟩ := Prod.mk.inj (pure_ok.1 done)
    obtain ⟨_, rfl⟩ := Prod.mk.inj (pure_ok.1 done')
    exact ⟨trivial, mirrors.modifyCell cell change⟩

end Mirrors

end Likeness

end Tasking
