import Tasking.Queue.Linked

/-! # Producers and consumers

Several producers put their items into one queue, and consumers take them until the queue
is empty.  However the producers take turns, every item comes out once, and the items of
one producer come out in the order in which it put them.  `Exchange.report` makes the
producers take strict turns and writes down what came of it.
-/

namespace Tasking.Queue

/-- So many producers with so many items each, and so many consumers. -/
structure Exchange where
  producers : Nat
  each : Nat
  consumers : Nat
  deriving DecidableEq

namespace Exchange

/-- The number of items. -/
def size (x : Exchange) : Nat := x.producers * x.each

/-- The items in the order in which they are put: first the first item of every producer, then
    the second ones.  Item `j` of producer `i` is number `i * each + j`. -/
def order (x : Exchange) : List Nat :=
  (List.range x.each).flatMap fun j =>
    (List.range x.producers).map fun i => i * x.each + j

/-- Some of the items, by their numbers. -/
def items (x : Exchange) (numbers : List Nat) : List (Fin x.size) :=
  numbers.filterMap fun i => if h : i < x.size then some ⟨i, h⟩ else none

/-- Put items into the queue in order. -/
def putAll (x : Exchange) : Links x.size 1 → List (Fin x.size) → Except Fault (Links x.size 1)
  | s, [] => .ok s
  | s, i :: rest =>
    match s.put 0 i with
    | .ok s => x.putAll s rest
    | .error fault => .error fault

/-- Whether the items of each producer come in order: `expected` has the next item of each. -/
def inOrder (x : Exchange) : Array Nat → List Nat → Bool
  | _, [] => true
  | expected, item :: rest =>
    let producer := item / x.each
    expected[producer]? = some (item % x.each) &&
      x.inOrder (expected.modify producer (· + 1)) rest

/-- What came of an exchange. -/
structure Report where
  /-- How many items were taken. -/
  taken : Nat
  /-- Every item was taken once. -/
  complete : Bool
  /-- The items of each producer came in order. -/
  ordered : Bool
  /-- How many items the queue has left. -/
  left : Nat
  isEmpty : Bool
  deriving DecidableEq

/-- What came of an exchange, given the items taken and the links after it. -/
def reportOn (x : Exchange) (taken : List Nat) (s : Links x.size 1) : Report where
  taken := taken.length
  complete := taken.mergeSort = List.range x.size
  ordered := x.inOrder (Array.replicate x.producers 0) taken
  left := s.length 0
  isEmpty := s.isEmpty 0

/-- Take all items, unless there is nobody to take them. -/
def takeAll (x : Exchange) (s : Links x.size 1) : List (Fin x.size) × Links x.size 1 :=
  if x.consumers = 0 then ([], s) else s.drain 0

/-- Put all items into an empty queue, take them, and look at what came out. -/
def report (x : Exchange) : Except Fault Report :=
  match x.putAll (.initial x.size 1) (x.items x.order) with
  | .error fault => .error fault
  | .ok s =>
    let (taken, s) := x.takeAll s
    .ok (x.reportOn (taken.map Fin.val) s)

end Exchange

end Tasking.Queue
