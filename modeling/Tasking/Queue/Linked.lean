import Tasking.Fault
import Tasking.Text.Record

/-! # Queues linked through their items

Every item carries one link, so an item sits in at most one queue and queueing allocates
nothing.  A queue knows its oldest and its newest node, and owns a stub node that stands
in when there is nothing else: a fresh queue's oldest and newest node is the stub.

Taking an item needs a successor to move on to.  When the last item is taken, the stub is
therefore queued behind it first; a later call finds the stub at the head and steps over
it.  A node whose successor is not yet written although it is not the newest is
half-linked, and taking stops there.

`Links n m` is the memory of `n` items and `m` queues.
-/

namespace Tasking.Queue

/-- The nodes: the stub of each queue, and the items. -/
inductive Node (n m : Nat) where
  | stub (queue : Fin m)
  | item (item : Fin n)
  deriving DecidableEq

/-- What a node's link says. -/
inductive Link (n m : Nat) where
  /-- The node is in no queue. -/
  | detached
  /-- The node is in a queue and nothing is linked behind it. -/
  | last
  /-- The node is in a queue, right before another node. -/
  | before (node : Node n m)
  deriving DecidableEq

namespace Link

variable {n m : Nat}

/-- The node behind, if one is linked. -/
def successor? : Link n m → Option (Node n m)
  | before node => some node
  | _ => none

end Link

/-- What belongs to a queue itself. -/
structure Ends (n m : Nat) where
  head : Node n m
  tail : Node n m
  stub : Link n m
  count : Int

/-- The links of `n` items and the ends of `m` queues. -/
structure Links (n m : Nat) where
  items : Vector (Link n m) n
  queues : Vector (Ends n m) m

/-- What taking from a queue finds. -/
inductive Taken (n : Nat) where
  | item (item : Fin n)
  | nothing
  | halfLinked
  deriving DecidableEq

namespace Links

variable {n m : Nat}

/-- All items detached and all queues empty. -/
def initial (n m : Nat) : Links n m where
  items := Vector.replicate n .detached
  queues := Vector.ofFn fun q => ⟨.stub q, .stub q, .last, 0⟩

/-- The oldest node of a queue. -/
def head (s : Links n m) (q : Fin m) : Node n m := s.queues[q].head

/-- The newest node of a queue. -/
def tail (s : Links n m) (q : Fin m) : Node n m := s.queues[q].tail

/-- The number of items that a queue remembers. -/
def count (s : Links n m) (q : Fin m) : Int := s.queues[q].count

/-- The link of a node. -/
def next (s : Links n m) : Node n m → Link n m
  | .stub q => s.queues[q].stub
  | .item i => s.items[i]

/-- Write the link of a node. -/
def setNext (s : Links n m) (node : Node n m) (link : Link n m) : Links n m :=
  match node with
  | .stub q => { s with queues := s.queues.set q { s.queues[q] with stub := link } }
  | .item i => { s with items := s.items.set i link }

/-- Write the oldest node of a queue. -/
def setHead (s : Links n m) (q : Fin m) (node : Node n m) : Links n m :=
  { s with queues := s.queues.set q { s.queues[q] with head := node } }

/-- Write the newest node of a queue. -/
def setTail (s : Links n m) (q : Fin m) (node : Node n m) : Links n m :=
  { s with queues := s.queues.set q { s.queues[q] with tail := node } }

/-- Add to the count of a queue. -/
def addCount (s : Links n m) (q : Fin m) (amount : Int) : Links n m :=
  { s with queues := s.queues.set q { s.queues[q] with count := s.queues[q].count + amount } }

theorem queues_set (s : Links n m) (q p : Fin m) (f : Ends n m → Ends n m) :
    (s.queues.set q (f s.queues[q]))[p] = if p = q then f s.queues[q] else s.queues[p] := by
  by_cases same : p = q
  · subst same
    simp
  · simp [same, Fin.val_inj, Ne.symm same]

/-- What a write leaves alone reads as before, in every queue. -/
theorem queues_set_keep (s : Links n m) (q p : Fin m) {α : Type} (part : Ends n m → α) {f : Ends n m → Ends n m}
    (keeps : ∀ ends, part (f ends) = part ends) :
    part (s.queues.set q (f s.queues[q]))[p] = part s.queues[p] := by
  rw [queues_set]
  split
  · next same => rw [keeps, same]
  · rfl

/-- Whether an item sits in some queue. -/
def isLinked (s : Links n m) (i : Fin n) : Bool := s.items[i] ≠ .detached

/-- The number of items in a queue. -/
def length (s : Links n m) (q : Fin m) : Nat := s.queues[q].count.toNat

/-- Whether both ends of a queue are its stub. -/
def isEmpty (s : Links n m) (q : Fin m) : Bool := s.head q = .stub q ∧ s.tail q = .stub q

/-- Make a node the newest of a queue and link it behind the one that was. -/
def link (s : Links n m) (q : Fin m) (node : Node n m) : Links n m :=
  (s.setTail q node).setNext (s.tail q) (.before node)

/-- Append an item, which must be in no queue. -/
def put (s : Links n m) (q : Fin m) (i : Fin n) : Except Fault (Links n m) :=
  match s.next (.item i) with
  | .detached => .ok (((s.setNext (.item i) .last).link q (.item i)).addCount q 1)
  | _ => .error .alreadyLinked

/-- Take a node out of the links.  Only items are handed out. -/
def detach (s : Links n m) : Node n m → Taken n × Links n m
  | .item i => (.item i, s.setNext (.item i) .detached)
  | .stub _ => (.halfLinked, s)

/-- Take the given oldest node, which is not the queue's stub. -/
def popNode (s : Links n m) (q : Fin m) (node : Node n m) : Taken n × Links n m :=
  match (s.next node).successor? with
  | some successor => (s.setHead q successor).detach node
  | none =>
    if s.tail q = node then
      let s := (s.setNext (.stub q) .last).link q (.stub q)
      match (s.next node).successor? with
      | some successor => (s.setHead q successor).detach node
      | none => (.halfLinked, s)
    else
      (.halfLinked, s)

/-- Take the oldest item of a queue, stepping over the stub. -/
def pop (s : Links n m) (q : Fin m) : Taken n × Links n m :=
  if s.head q = .stub q then
    match (s.next (.stub q)).successor? with
    | some first => (s.setHead q first).popNode q first
    | none => (if s.tail q = .stub q then .nothing else .halfLinked, s)
  else
    s.popNode q (s.head q)

/-- Take the oldest item of a queue and count it out. -/
def get (s : Links n m) (q : Fin m) : Taken n × Links n m :=
  match s.pop q with
  | (.item i, s) => (.item i, s.addCount q (-1))
  | other => other

/-- The oldest item of a queue, left where it is. -/
def peek (s : Links n m) (q : Fin m) : Option (Fin n) :=
  let oldest := if s.head q = .stub q then (s.next (.stub q)).successor? else some (s.head q)
  match oldest with
  | some (.item i) => some i
  | _ => none

/-- Take items until there is none, at most `rounds` times. -/
def drainUpTo (s : Links n m) (q : Fin m) : Nat → List (Fin n) × Links n m
  | 0 => ([], s)
  | rounds + 1 =>
    match s.get q with
    | (.item i, s) =>
      let (rest, s) := s.drainUpTo q rounds
      (i :: rest, s)
    | (_, s) => ([], s)

/-- Take all items.  A queue holds an item at most once, so `n` rounds are enough. -/
def drain (s : Links n m) (q : Fin m) : List (Fin n) × Links n m := s.drainUpTo q n

/-- Give up a queue: its items become free for other queues. -/
def drop (s : Links n m) (q : Fin m) : Links n m := (s.drain q).2

/-- An item's node in diagnostics. -/
def nodeDiagnostic (s : Links n m) (i : Fin n) : String :=
  Text.record "QueueNode" [("linked", Text.flag (s.isLinked i))]

/-- A queue in diagnostics. -/
def diagnostic (s : Links n m) (q : Fin m) : String :=
  Text.record "Queue" [("len", toString (s.length q))]

end Links

end Tasking.Queue
