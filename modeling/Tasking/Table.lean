/-! # Numbered tables

Tasks, frames, resources and the other long-lived things of the runtime are known
by a number, counted from one in the order of their creation, and live in one table
per kind.  A number carries the kind of thing it names, so that a frame's number
cannot be used to look up a task.

A table only grows.  `get?_add`, `get?_add_new`, `get?_modify_self` and
`get?_modify_ne` say all there is to know about it: adding gives a fresh number and
keeps every older entry, and changing one entry leaves the others as they were.
-/

namespace Tasking

/-- The kinds of things that carry a number. -/
inductive Kind where
  | task | frame | resource | exclusive | actor | scheduler | registry | cell
  deriving DecidableEq

namespace Kind

/-- The English name of a kind. -/
def name : Kind → String
  | .task => "task"
  | .frame => "frame"
  | .resource => "resource"
  | .exclusive => "exclusive"
  | .actor => "actor"
  | .scheduler => "scheduler"
  | .registry => "registry"
  | .cell => "cell"

end Kind

/-- The number of a thing of the given kind.  The first thing created is number one;
    nothing is ever number zero. -/
structure Id (kind : Kind) where
  number : Nat
  deriving DecidableEq

abbrev TaskId := Id .task
abbrev FrameId := Id .frame
abbrev ResourceId := Id .resource
abbrev ExclusiveId := Id .exclusive
abbrev ActorId := Id .actor
abbrev SchedulerId := Id .scheduler
abbrev RegistryId := Id .registry
abbrev CellId := Id .cell

/-- The things of one kind, in the order of their numbers. -/
structure Table (kind : Kind) (α : Type) where
  entries : Array α

namespace Table

variable {kind : Kind} {α : Type}

/-- The table before anything was created. -/
def empty : Table kind α := ⟨#[]⟩

/-- How many things there are. -/
def size (t : Table kind α) : Nat := t.entries.size

/-- The thing with this number, if there is one. -/
def get? (t : Table kind α) (i : Id kind) : Option α :=
  if i.number = 0 then none else t.entries[i.number - 1]?

/-- The number that the next thing will get. -/
def next (t : Table kind α) : Id kind := ⟨t.entries.size + 1⟩

/-- Put a new thing at the end; its number is `t.next`. -/
def add (t : Table kind α) (a : α) : Table kind α := ⟨t.entries.push a⟩

/-- Change the thing with this number. -/
def modify (t : Table kind α) (i : Id kind) (f : α → α) : Table kind α :=
  if i.number = 0 then t else ⟨t.entries.modify (i.number - 1) f⟩

/-- All numbers in use, in order. -/
def ids (t : Table kind α) : List (Id kind) :=
  (List.range t.entries.size).map fun n => ⟨n + 1⟩

@[simp] theorem get?_empty (i : Id kind) : (empty : Table kind α).get? i = none := by
  simp [get?, empty]

@[simp] theorem size_add (t : Table kind α) (a : α) : (t.add a).size = t.size + 1 := by
  simp [size, add]

@[simp] theorem size_modify (t : Table kind α) (i : Id kind) (f : α → α) :
    (t.modify i f).size = t.size := by
  unfold modify
  split <;> simp [size]

/-- The thing just added is found under the number announced for it. -/
@[simp] theorem get?_add_new (t : Table kind α) (a : α) : (t.add a).get? t.next = some a := by
  simp [get?, add, next]

/-- Adding keeps what was there. -/
theorem get?_add (t : Table kind α) (a : α) {i : Id kind} (h : i ≠ t.next) :
    (t.add a).get? i = t.get? i := by
  obtain ⟨n⟩ := i
  have hn : n ≠ t.entries.size + 1 := fun e => h (by simp [next, e])
  unfold get? add
  dsimp only
  split
  · rfl
  · rw [Array.getElem?_push, if_neg (by omega)]

@[simp] theorem get?_modify_self (t : Table kind α) (i : Id kind) (f : α → α) :
    (t.modify i f).get? i = (t.get? i).map f := by
  unfold modify get?
  split
  · rfl
  · simp only [Array.getElem?_modify, if_true]

/-- Changing one entry leaves the others alone. -/
theorem get?_modify_ne (t : Table kind α) {i j : Id kind} (f : α → α) (h : j ≠ i) :
    (t.modify i f).get? j = t.get? j := by
  obtain ⟨n⟩ := i
  obtain ⟨m⟩ := j
  have hne : m ≠ n := fun e => h (by rw [e])
  unfold modify get?
  dsimp only
  split
  · rfl
  · split
    · rfl
    · rw [Array.getElem?_modify, if_neg (by omega)]

/-- A number is in use exactly when something is found under it. -/
theorem isSome_get?_iff (t : Table kind α) (i : Id kind) :
    (t.get? i).isSome ↔ 0 < i.number ∧ i.number ≤ t.size := by
  unfold get? size
  split
  · simp; omega
  · simp; omega

end Table

end Tasking
