import Mathlib.Data.List.Induction
import Std.Data.HashMap.Lemmas
import Tasking.Registry

/-! # What the tables of a registry record

An open registry is told by two lists: the names in the order in which they were first seen, and the functions in the
order in which somebody tried to put them under a name.  `Registry.Records` says what the tables hold then.  A symbol is
the position of its name, and the function under a name is the first one that somebody tried to put there.

The three tables stay in step with the two lists through whatever changes them (`Tables.Records.intern`,
`Registry.Records.register`), as long as there are no more names than numbers for them.
-/

namespace Tasking

/-- The names after one more was seen. -/
def withName (names : List String) (name : String) : List String :=
  if name ∈ names then names else names ++ [name]

variable {names : List String} {name other : String}

theorem withName_of_mem (known : name ∈ names) : withName names name = names := if_pos known

theorem withName_of_new (new : name ∉ names) : withName names name = names ++ [name] := if_neg new

theorem mem_withName_self : name ∈ withName names name := by
  unfold withName
  split
  · assumption
  · simp

/-- The names that were seen, each once and in the order in which they were seen first. -/
theorem eraseDups_concat (seen : List String) (name : String) :
    (seen ++ [name]).eraseDups = withName seen.eraseDups name := by
  rw [List.eraseDups_append]
  by_cases known : name ∈ seen
  · rw [withName_of_mem (List.mem_eraseDups.2 known)]
    simp [List.removeAll, known]
  · rw [withName_of_new (mt List.mem_eraseDups.1 known)]
    simp [List.removeAll, known, List.eraseDups_cons]

namespace Registry

variable {F : Type} {functions : List (String × F)} {symbol : Symbol} {f : F}

theorem lookup_concat_of_ne (apart : other ≠ name) :
    (functions ++ [(name, f)]).lookup other = functions.lookup other := by
  have missing : List.lookup other [(name, f)] = none := by
    rw [List.lookup_eq_none_iff]
    simpa using apart
  rw [List.lookup_append, missing, Option.or_none]

namespace Tables

/-- What the tables hold if these names were seen, and these functions were to be put under names. -/
structure Records (t : Tables F) (names : List String) (functions : List (String × F)) : Prop where
  toList_names : t.names.toList = names
  room : names.length ≤ UInt32.size
  symbols : ∀ (name : String) (symbol : Symbol), t.symbols[name]? = some symbol ↔ names[symbol.index.toNat]? = some name
  natives : ∀ symbol : Symbol, t.natives[symbol]? = names[symbol.index.toNat]?.bind fun name => functions.lookup name
  seen : ∀ name ∈ functions.map Prod.fst, name ∈ names
  count : t.natives.size = (functions.map Prod.fst).eraseDups.length

variable {t : Tables F}

theorem records_empty : (empty : Tables F).Records [] [] where
  toList_names := rfl
  room := by simp
  symbols := by simp [empty]
  natives := by simp [empty]
  seen := by simp
  count := rfl

namespace Records

variable (records : t.Records names functions)
include records

theorem size : t.names.size = names.length := by rw [← records.toList_names, Array.length_toList]

theorem getElem?_names (i : Nat) : t.names[i]? = names[i]? := by rw [← records.toList_names, Array.getElem?_toList]

/-- Every name that was seen has a symbol. -/
theorem exists_symbol (known : name ∈ names) : ∃ symbol, t.symbols[name]? = some symbol := by
  obtain ⟨i, bound, here⟩ := List.mem_iff_getElem.1 known
  have small : i.toUInt32.toNat = i := UInt32.toNat_ofNat_of_lt (by have := records.room; omega)
  refine ⟨⟨i.toUInt32⟩, (records.symbols name _).2 ?_⟩
  rw [show (⟨i.toUInt32⟩ : Symbol).index.toNat = i from small, List.getElem?_eq_getElem bound, here]

theorem no_symbol (new : name ∉ names) : t.symbols[name]? = none := by
  rw [Option.eq_none_iff_forall_ne_some]
  intro symbol found
  exact new (List.mem_of_getElem? ((records.symbols name symbol).1 found))

theorem lookup_eq_none (new : name ∉ names) : functions.lookup name = none := by
  rw [List.lookup_eq_none_iff]
  intro entry member
  have apart : name ≠ entry.1 := by
    rintro rfl
    exact new (records.seen _ (List.mem_map_of_mem member))
  simpa using apart

theorem native_of_symbol (here : names[symbol.index.toNat]? = some name) :
    t.natives[symbol]? = functions.lookup name := by
  rw [records.natives, here, Option.bind_some]

theorem native? (name : String) : t.native? name = functions.lookup name := by
  rw [Tables.native?]
  by_cases known : name ∈ names
  · obtain ⟨symbol, found⟩ := records.exists_symbol known
    simp only [found, Option.bind_eq_bind, Option.bind_some]
    exact records.native_of_symbol ((records.symbols name symbol).1 found)
  · rw [records.no_symbol known, records.lookup_eq_none known]
    rfl

/-- A new name gets the next symbol, and nothing else changes. -/
theorem push (new : name ∉ names) (room : names.length < UInt32.size) :
    ({ t with
        names := t.names.push name
        symbols := t.symbols.insert name ⟨t.names.size.toUInt32⟩ } : Tables F).Records
      (names ++ [name]) functions where
  toList_names := by simp [records.toList_names]
  room := by
    rw [List.length_append, List.length_singleton]
    exact room
  symbols other symbol := by
    have last : t.names.size.toUInt32.toNat = names.length := by
      rw [records.size]
      exact UInt32.toNat_ofNat_of_lt room
    rw [Std.HashMap.getElem?_insert, List.getElem?_append]
    by_cases here : name = other
    · subst here
      have absent : names[symbol.index.toNat]? ≠ some name := fun there => new (List.mem_of_getElem? there)
      simp only [beq_self_eq_true, if_true, Option.some.injEq]
      split
      · next inside =>
        refine ⟨?_, fun there => absurd there absent⟩
        rintro rfl
        exact absurd inside (by simp [last])
      · next outside =>
        constructor
        · rintro rfl
          simp [last]
        · intro there
          have zero : symbol.index.toNat - names.length = 0 := by
            by_contra more
            rw [List.getElem?_eq_none (by simp; omega)] at there
            cases there
          have same : symbol.index = t.names.size.toUInt32 := UInt32.toNat_inj.1 (by omega)
          rw [← same]
    · rw [if_neg (by simpa using here), records.symbols]
      split
      · rfl
      · next outside =>
        rw [List.getElem?_eq_none (by omega)]
        simp only [reduceCtorEq, false_iff]
        intro there
        exact here (List.mem_singleton.1 (List.mem_of_getElem? there)).symm
  natives symbol := by
    rw [records.natives, List.getElem?_append]
    split
    · rfl
    · next outside =>
      rw [List.getElem?_eq_none (by omega), Option.bind_none]
      cases there : [name][symbol.index.toNat - names.length]? with
      | none => rfl
      | some other =>
        obtain rfl := List.mem_singleton.1 (List.mem_of_getElem? there)
        exact (records.lookup_eq_none new).symm
  seen other member := List.mem_append_left _ (records.seen other member)
  count := records.count

/-- Interning a name gives the position that it has, or that it has from then on. -/
theorem intern (room : (withName names name).length ≤ UInt32.size) :
    (withName names name)[(t.intern name).1.index.toNat]? = some name ∧
      (t.intern name).2.Records (withName names name) functions ∧ (name ∈ names → (t.intern name).2 = t) := by
  unfold Tables.intern
  by_cases known : name ∈ names
  · obtain ⟨symbol, found⟩ := records.exists_symbol known
    simp only [found, withName_of_mem known]
    exact ⟨(records.symbols name symbol).1 found, records, fun _ => trivial⟩
  · simp only [records.no_symbol known, withName_of_new known]
    rw [withName_of_new known, List.length_append, List.length_singleton] at room
    have last : t.names.size.toUInt32.toNat = names.length := by
      rw [records.size]
      exact UInt32.toNat_ofNat_of_lt (by omega)
    exact ⟨by simp [last], records.push known (by omega), fun member => absurd member known⟩

/-- A function is put under a name that has none. -/
theorem insert (here : names[symbol.index.toNat]? = some name) (free : functions.lookup name = none) :
    ({ t with natives := t.natives.insert symbol f } : Tables F).Records names (functions ++ [(name, f)]) where
  toList_names := records.toList_names
  room := records.room
  symbols := records.symbols
  natives other := by
    rw [Std.HashMap.getElem?_insert]
    by_cases same : symbol = other
    · subst same
      simp [here, List.lookup_append, free]
    · rw [if_neg (by simpa using same), records.natives]
      cases there : names[other.index.toNat]? with
      | none => rfl
      | some name' =>
        -- The name has one symbol only.
        have apart : name' ≠ name := by
          rintro rfl
          have one := (records.symbols name' symbol).2 here
          have two := (records.symbols name' other).2 there
          exact same (Option.some.inj (one.symm.trans two))
        rw [Option.bind_some, Option.bind_some, lookup_concat_of_ne apart]
  seen name' member := by
    rw [List.map_append, List.mem_append] at member
    obtain old | last := member
    · exact records.seen name' old
    · obtain rfl : name' = name := by simpa using last
      exact List.mem_of_getElem? here
  count := by
    have fresh : symbol ∉ t.natives := by
      rw [← Std.HashMap.isSome_getElem?_iff_mem, records.native_of_symbol here, free]
      simp
    have unlisted : name ∉ (functions.map Prod.fst).eraseDups := by
      rw [List.mem_eraseDups]
      intro member
      obtain ⟨entry, inside, rfl⟩ := List.mem_map.1 member
      have known : (functions.lookup entry.1).isSome = true :=
        List.lookup_isSome_iff.2 ⟨entry, inside, by simp⟩
      simp [free] at known
    rw [Std.HashMap.size_insert, if_neg fresh, records.count, List.map_append, List.map_singleton, eraseDups_concat,
      withName_of_new unlisted, List.length_append, List.length_singleton]

/-- An attempt to put a function under a name that has one leaves the tables as they are. -/
theorem refuse (taken : (functions.lookup name).isSome = true) : t.Records names (functions ++ [(name, f)]) where
  toList_names := records.toList_names
  room := records.room
  symbols := records.symbols
  natives symbol := by
    rw [records.natives]
    cases there : names[symbol.index.toNat]? with
    | none => rfl
    | some name' =>
      rw [Option.bind_some, Option.bind_some]
      by_cases same : name' = name
      · subst same
        obtain ⟨first, found⟩ := Option.isSome_iff_exists.1 taken
        rw [List.lookup_append, found, Option.some_or]
      · rw [lookup_concat_of_ne same]
  seen name' member := by
    rw [List.map_append, List.mem_append] at member
    obtain old | last := member
    · exact records.seen name' old
    · obtain rfl : name' = name := by simpa using last
      by_contra new
      simp [records.lookup_eq_none new] at taken
  count := by
    have listed : name ∈ (functions.map Prod.fst).eraseDups := by
      obtain ⟨entry, inside, same⟩ := List.lookup_isSome_iff.1 taken
      obtain rfl : name = entry.1 := by simpa using same
      exact List.mem_eraseDups.2 (List.mem_map_of_mem inside)
    rw [records.count, List.map_append, List.map_singleton, eraseDups_concat, withName_of_mem listed]

end Records

end Tables

/-- The registry is open, and its tables record these names and functions. -/
def Records (g : Registry F) (names : List String) (functions : List (String × F)) : Prop :=
  ∃ t, g.tables = some t ∧ t.Records names functions

variable {g g' : Registry F}

theorem records_new : (new : Registry F).Records [] [] := ⟨_, rfl, Tables.records_empty⟩

namespace Records

variable (records : g.Records names functions)
include records

theorem room : names.length ≤ UInt32.size := by
  obtain ⟨t, _, records⟩ := records
  exact records.room

theorem lookup_eq_none (new : name ∉ names) : functions.lookup name = none := by
  obtain ⟨t, _, records⟩ := records
  exact records.lookup_eq_none new

theorem lookup (name : String) :
    ∃ found, g.lookup name = .ok found ∧ ∀ symbol, found = some symbol ↔ names[symbol.index.toNat]? = some name := by
  obtain ⟨t, tables, records⟩ := records
  exact ⟨t.symbols[name]?, by simp [Registry.lookup, opened, tables, Except.map], records.symbols name⟩

theorem nameOf (symbol : Symbol) : g.nameOf symbol = .ok names[symbol.index.toNat]? := by
  obtain ⟨t, tables, records⟩ := records
  simp [Registry.nameOf, opened, tables, Except.map, records.getElem?_names]

theorem native (name : String) : g.native name =
    match functions.lookup name with
    | some f => .ok f
    | none => .error (.unknownNative name) := by
  obtain ⟨t, tables, records⟩ := records
  cases found : functions.lookup name <;> simp [Registry.native, opened, tables, records.native?, found]

theorem view : g.view = ⟨true, names.length, (functions.map Prod.fst).eraseDups.length⟩ := by
  obtain ⟨t, tables, records⟩ := records
  simp [Registry.view, isOpen, symbolCount, nativeCount, tables, records.size, records.count]

/-- A name that is interned has the position that it had, or comes last. -/
theorem intern (room : (withName names name).length ≤ UInt32.size) :
    ∃ symbol g', g.intern name = .ok (symbol, g') ∧ (withName names name)[symbol.index.toNat]? = some name ∧
      g'.Records (withName names name) functions ∧ (name ∈ names → g' = g) := by
  obtain ⟨t, tables, records⟩ := records
  obtain ⟨here, after, same⟩ := records.intern room
  refine ⟨(t.intern name).1, ⟨some (t.intern name).2⟩, ?_, here, ⟨_, rfl, after⟩, fun known => ?_⟩
  · simp [Registry.intern, opened, tables, Except.map]
  · rw [same known, ← tables]

/-- A function is put under a name unless there is one already.  Then nothing changes. -/
theorem register (f : F) (room : (withName names name).length ≤ UInt32.size) :
    (g.register name f).2.Records (withName names name) (functions ++ [(name, f)]) ∧
      match functions.lookup name with
      | some _ => g.register name f = (.error (.duplicateNative name), g)
      | none => ∃ symbol, (g.register name f).1 = .ok symbol ∧
          (withName names name)[symbol.index.toNat]? = some name := by
  obtain ⟨t, tables, records⟩ := records
  obtain ⟨here, after, same⟩ := records.intern room
  have under := after.native_of_symbol here
  cases taken : functions.lookup name with
  | some first =>
    have known : name ∈ names := by
      by_contra new
      simp [records.lookup_eq_none new] at taken
    have present : (t.intern name).1 ∈ (t.intern name).2.natives := by
      rw [← Std.HashMap.isSome_getElem?_iff_mem, under, taken]
      rfl
    have done : g.register name f = (.error (.duplicateNative name), g) := by
      rw [Registry.register]
      simp only [tables, present, if_true]
      rw [same known, ← tables]
    rw [done, withName_of_mem known]
    exact ⟨⟨t, tables, records.refuse (by simp [taken])⟩, rfl⟩
  | none =>
    have absent : (t.intern name).1 ∉ (t.intern name).2.natives := by
      rw [← Std.HashMap.isSome_getElem?_iff_mem, under, taken]
      simp
    have done : g.register name f = (.ok (t.intern name).1,
        ⟨some { (t.intern name).2 with natives := (t.intern name).2.natives.insert (t.intern name).1 f }⟩) := by
      rw [Registry.register]
      simp only [tables, absent, if_false]
    rw [done]
    exact ⟨⟨_, rfl, after.insert here taken⟩, _, rfl, here⟩

end Records

/-! ## Entries -/

/-- What is done to a registry that may change it. -/
inductive Entry (F : Type) where
  | intern (name : String)
  | register (name : String) (f : F)
  | close

/-- The registry after something was done to it. -/
def enter (g : Registry F) : Entry F → Registry F
  | .intern name =>
    match g.intern name with
    | .ok (_, g') => g'
    | .error _ => g
  | .register name f => (g.register name f).2
  | .close => g.close

namespace Entry

/-- The name that is seen, if one is. -/
def name? : Entry F → Option String
  | intern name | register name _ => some name
  | close => none

/-- The names after something was done. -/
def extend (entry : Entry F) (names : List String) : List String :=
  match entry.name? with
  | some name => withName names name
  | none => names

/-- The function that is to be put under a name, if there is one. -/
def function? : Entry F → Option (String × F)
  | register name f => some (name, f)
  | intern _ | close => none

end Entry

/-- The names that were seen, in the order in which they were seen first. -/
def namesOf (entries : List (Entry F)) : List String := (entries.filterMap Entry.name?).eraseDups

/-- The functions that were to be put under names. -/
def functionsOf (entries : List (Entry F)) : List (String × F) := entries.filterMap Entry.function?

variable {entries later : List (Entry F)} {entry : Entry F}

theorem namesOf_concat (entries : List (Entry F)) (entry : Entry F) :
    namesOf (entries ++ [entry]) = entry.extend (namesOf entries) := by
  rw [namesOf, List.filterMap_append, Entry.extend]
  cases named : entry.name? with
  | none => simp [named, namesOf]
  | some name =>
    simp only [List.filterMap_cons, named, List.filterMap_nil]
    exact eraseDups_concat _ name

theorem namesOf_mono (first : entries <+: later) : namesOf entries <+: namesOf later := by
  obtain ⟨rest, rfl⟩ := first
  rw [namesOf, namesOf, List.filterMap_append, List.eraseDups_append]
  exact List.prefix_append _ _

theorem nodup_namesOf (entries : List (Entry F)) : (namesOf entries).Nodup := by
  induction entries using List.reverseRecOn with
  | nil => exact List.nodup_nil
  | append_singleton entries entry inductionHypothesis =>
    rw [namesOf_concat, Entry.extend]
    cases entry.name? with
    | none => exact inductionHypothesis
    | some name =>
      dsimp only
      unfold withName
      split
      · exact inductionHypothesis
      · next new =>
        refine List.nodup_append.2 ⟨inductionHypothesis, by simp, fun other inside last member => ?_⟩
        rintro rfl
        exact new (List.mem_singleton.1 member ▸ inside)

theorem functionsOf_concat (entries : List (Entry F)) (entry : Entry F) :
    functionsOf (entries ++ [entry]) = functionsOf entries ++ entry.function?.toList := by
  rw [functionsOf, List.filterMap_append, functionsOf]
  cases here : entry.function? <;> simp [here]

/-- The first function under a name stays the first. -/
theorem lookup_functionsOf_mono (first : entries <+: later) (found : (functionsOf entries).lookup name = some f) :
    (functionsOf later).lookup name = some f := by
  obtain ⟨rest, rfl⟩ := first
  rw [functionsOf, List.filterMap_append, List.lookup_append, ← functionsOf, found, Option.some_or]

theorem tables_enter (closed : g.tables = none) (entry : Entry F) : (g.enter entry).tables = none := by
  cases entry with
  | intern name => simp [enter, intern, opened, closed, Except.map]
  | register name f => simp [enter, register, closed]
  | close => rfl

/-- A registry that was closed has no tables, whatever is done to it before and after. -/
theorem tables_of_close (closed : Entry.close ∈ entries) : (entries.foldl enter (new : Registry F)).tables = none := by
  induction entries using List.reverseRecOn with
  | nil => simp at closed
  | append_singleton entries entry inductionHypothesis =>
    rw [List.foldl_append, List.foldl_cons, List.foldl_nil]
    obtain before | last := List.mem_append.1 closed
    · exact tables_enter (inductionHypothesis before) entry
    · obtain rfl := List.mem_singleton.1 last
      rfl

theorem Records.enter (records : g.Records names functions) (opens : entry ≠ .close)
    (room : (entry.extend names).length ≤ UInt32.size) :
    (g.enter entry).Records (entry.extend names) (functions ++ entry.function?.toList) := by
  cases entry with
  | close => exact absurd rfl opens
  | intern name =>
    obtain ⟨symbol, g', done, _, after, _⟩ := records.intern room
    simpa [Registry.enter, done, Entry.extend, Entry.name?, Entry.function?] using after
  | register name f => exact (records.register f room).1

/-- An open registry records what was done to it since it was made. -/
theorem records_foldl (opens : Entry.close ∉ entries) (room : (namesOf entries).length ≤ UInt32.size) :
    (entries.foldl enter (new : Registry F)).Records (namesOf entries) (functionsOf entries) := by
  induction entries using List.reverseRecOn with
  | nil => exact records_new
  | append_singleton entries entry inductionHypothesis =>
    obtain ⟨before, last⟩ := not_or.1 (mt List.mem_append.2 opens)
    have less := (namesOf_mono (List.prefix_append entries [entry])).length_le
    have records := inductionHypothesis before (by omega)
    rw [namesOf_concat] at room
    have after := records.enter (fun same => last (by simp [same])) room
    rw [List.foldl_append, List.foldl_cons, List.foldl_nil, namesOf_concat, functionsOf_concat]
    exact after

example : namesOf [.intern "spawn", .register "print" (), .intern "spawn", .register "spawn" ()] = ["spawn", "print"] := by
  decide

end Registry

end Tasking
