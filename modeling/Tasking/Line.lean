/-! # Lines

Things that wait in line are taken in the order in which they came.  A line is kept as two
lists, the newer things in reverse, so that joining it and leaving it take no longer in a long
line than in a short one.

`Line.toList` is the line from its head to its end, and all there is to know about a line:
`toList_push` adds at the end, and `toList_of_pop?` and `pop?_eq_none_iff` say what is taken.
-/

namespace Tasking

/-- Things in line. -/
structure Line (α : Type) where
  /-- The things at the head, the oldest first. -/
  front : List α
  /-- The things behind them, the newest first. -/
  back : List α
  deriving DecidableEq

namespace Line

variable {α : Type}

/-- Nothing waits. -/
def empty : Line α := ⟨[], []⟩

/-- The things in line, the oldest first. -/
def toList (l : Line α) : List α := l.front ++ l.back.reverse

/-- Whether nothing waits. -/
def isEmpty (l : Line α) : Bool := l.front.isEmpty && l.back.isEmpty

/-- How many things wait. -/
def length (l : Line α) : Nat := l.front.length + l.back.length

/-- Put a thing at the end. -/
def push (l : Line α) (a : α) : Line α := { l with back := a :: l.back }

/-- Take the oldest thing. -/
def pop? (l : Line α) : Option (α × Line α) :=
  match l.front with
  | a :: front => some (a, { l with front := front })
  | [] =>
    match l.back.reverse with
    | [] => none
    | a :: front => some (a, ⟨front, []⟩)

@[simp] theorem toList_empty : (empty : Line α).toList = [] := rfl

@[simp] theorem toList_push (l : Line α) (a : α) : (l.push a).toList = l.toList ++ [a] := by
  simp [push, toList]

@[simp] theorem length_toList (l : Line α) : l.toList.length = l.length := by
  simp [toList, length]

theorem isEmpty_iff (l : Line α) : l.isEmpty = true ↔ l.toList = [] := by
  simp [isEmpty, toList]

theorem toList_of_pop? {l rest : Line α} {a : α} (h : l.pop? = some (a, rest)) :
    l.toList = a :: rest.toList := by
  obtain ⟨front, back⟩ := l
  cases front with
  | cons b front =>
    obtain ⟨rfl, rfl⟩ : b = a ∧ ⟨front, back⟩ = rest := by simpa [pop?] using h
    rfl
  | nil =>
    cases hb : back.reverse with
    | nil => simp [pop?, hb] at h
    | cons b front =>
      obtain ⟨rfl, rfl⟩ : b = a ∧ ⟨front, []⟩ = rest := by simpa [pop?, hb] using h
      simp [toList, hb]

theorem pop?_eq_none_iff (l : Line α) : l.pop? = none ↔ l.toList = [] := by
  obtain ⟨front, back⟩ := l
  cases front with
  | cons b front => simp [pop?, toList]
  | nil => cases hb : back.reverse <;> simp [pop?, toList, hb]

/-- What is taken from a line that has something in it. -/
theorem exists_pop? {l : Line α} {a : α} {rest : List α} (line : l.toList = a :: rest) :
    ∃ others, l.pop? = some (a, others) ∧ others.toList = rest := by
  cases popped : l.pop? with
  | none => simp [(pop?_eq_none_iff l).1 popped] at line
  | some taken =>
    obtain ⟨b, others⟩ := taken
    obtain ⟨rfl, rfl⟩ := List.cons.inj ((toList_of_pop? popped).symm.trans line)
    exact ⟨others, rfl, rfl⟩

end Line

end Tasking
