import Mathlib.Data.List.Chain
import Tasking.Queue.Linked

/-! # Nodes on a string

The nodes of a queue hang together from its oldest to its newest: each one's link names the one behind it,
and the newest has nothing behind it (`Links.Strung`).  Of the links of other nodes nothing is said, so a
stub that was stepped over may say what it likes, and what happens to one queue leaves the others alone.

A string changes at its ends only.  A node is hung on behind the newest one (`Strung.snoc`), and the oldest
one is taken off (`Strung.uncons`).
-/

namespace Tasking.Queue.Links

variable {n m : Nat}

/-! ## Reading after writing -/

section Writing

variable (s : Links n m) (q p : Fin m) (a b : Node n m) (link : Link n m) (amount : Int)

@[simp] theorem next_setNext : (s.setNext a link).next b = if b = a then link else s.next b := by
  cases a with
  | stub q =>
    cases b with
    | stub p =>
      have written := s.queues_set q p fun ends => { ends with stub := link }
      simp only [setNext, next, written, Node.stub.injEq]
      split <;> rfl
    | item j => simp [setNext, next]
  | item i =>
    cases b with
    | stub p => simp [setNext, next]
    | item j =>
      by_cases same : j = i
      · subst same
        simp [setNext, next]
      · simp [setNext, next, same, Fin.val_inj, Ne.symm same]

@[simp] theorem head_setNext : (s.setNext a link).head q = s.head q := by
  cases a with
  | stub p => exact s.queues_set_keep p q Ends.head (f := fun ends => { ends with stub := link }) fun _ => rfl
  | item i => rfl

@[simp] theorem tail_setNext : (s.setNext a link).tail q = s.tail q := by
  cases a with
  | stub p => exact s.queues_set_keep p q Ends.tail (f := fun ends => { ends with stub := link }) fun _ => rfl
  | item i => rfl

@[simp] theorem count_setNext : (s.setNext a link).count q = s.count q := by
  cases a with
  | stub p => exact s.queues_set_keep p q Ends.count (f := fun ends => { ends with stub := link }) fun _ => rfl
  | item i => rfl

@[simp] theorem next_setHead : (s.setHead q b).next a = s.next a := by
  cases a with
  | stub p => exact s.queues_set_keep q p Ends.stub (f := fun ends => { ends with head := b }) fun _ => rfl
  | item i => rfl

@[simp] theorem head_setHead : (s.setHead q b).head p = if p = q then b else s.head p := by
  have written := s.queues_set q p fun ends => { ends with head := b }
  simp only [setHead, head, written]
  split <;> rfl

@[simp] theorem tail_setHead : (s.setHead q b).tail p = s.tail p :=
  s.queues_set_keep q p Ends.tail (f := fun ends => { ends with head := b }) fun _ => rfl

@[simp] theorem count_setHead : (s.setHead q b).count p = s.count p :=
  s.queues_set_keep q p Ends.count (f := fun ends => { ends with head := b }) fun _ => rfl

@[simp] theorem next_setTail : (s.setTail q b).next a = s.next a := by
  cases a with
  | stub p => exact s.queues_set_keep q p Ends.stub (f := fun ends => { ends with tail := b }) fun _ => rfl
  | item i => rfl

@[simp] theorem head_setTail : (s.setTail q b).head p = s.head p :=
  s.queues_set_keep q p Ends.head (f := fun ends => { ends with tail := b }) fun _ => rfl

@[simp] theorem tail_setTail : (s.setTail q b).tail p = if p = q then b else s.tail p := by
  have written := s.queues_set q p fun ends => { ends with tail := b }
  simp only [setTail, tail, written]
  split <;> rfl

@[simp] theorem count_setTail : (s.setTail q b).count p = s.count p :=
  s.queues_set_keep q p Ends.count (f := fun ends => { ends with tail := b }) fun _ => rfl

@[simp] theorem next_addCount : (s.addCount q amount).next a = s.next a := by
  cases a with
  | stub p =>
    exact s.queues_set_keep q p Ends.stub (f := fun ends => { ends with count := ends.count + amount })
      fun _ => rfl
  | item i => rfl

@[simp] theorem head_addCount : (s.addCount q amount).head p = s.head p :=
  s.queues_set_keep q p Ends.head (f := fun ends => { ends with count := ends.count + amount }) fun _ => rfl

@[simp] theorem tail_addCount : (s.addCount q amount).tail p = s.tail p :=
  s.queues_set_keep q p Ends.tail (f := fun ends => { ends with count := ends.count + amount }) fun _ => rfl

@[simp] theorem count_addCount : (s.addCount q amount).count p =
    s.count p + if p = q then amount else 0 := by
  have written := s.queues_set q p fun ends => { ends with count := ends.count + amount }
  simp only [addCount, count, written]
  split
  · next same => rw [same]
  · simp

@[simp] theorem next_link : (s.link q b).next a = if a = s.tail q then .before b else s.next a := by
  simp [Links.link]

@[simp] theorem head_link : (s.link q b).head p = s.head p := by simp [Links.link]

@[simp] theorem tail_link : (s.link q b).tail p = if p = q then b else s.tail p := by simp [Links.link]

@[simp] theorem count_link : (s.link q b).count p = s.count p := by simp [Links.link]

end Writing

/-! ## Strings -/

variable {s s' : Links n m} {q p : Fin m} {a b : Node n m} {nodes : List (Node n m)}

/-- The nodes of a queue, the oldest first. -/
structure Strung (s : Links n m) (q : Fin m) (nodes : List (Node n m)) : Prop where
  head : nodes.head? = some (s.head q)
  tail : nodes.getLast? = some (s.tail q)
  behind : nodes.IsChain fun a b => s.next a = .before b
  last : s.next (s.tail q) = .last
  once : nodes.Nodup

namespace Strung

/-- Nothing happened to the queue or its nodes. -/
theorem congr (strung : s.Strung q nodes) (head : s'.head q = s.head q) (tail : s'.tail q = s.tail q)
    (next : ∀ a ∈ nodes, s'.next a = s.next a) : s'.Strung q nodes where
  head := head ▸ strung.head
  tail := tail ▸ strung.tail
  behind := by
    refine strung.behind.imp_of_mem_imp fun a b inside _ link => ?_
    rw [next a inside, link]
  last := by
    rw [tail, next _ (List.mem_of_getLast? strung.tail), strung.last]
  once := strung.once

/-- The newest node has nothing behind it. -/
theorem successor?_tail (strung : s.Strung q nodes) : (s.next (s.tail q)).successor? = none := by
  rw [strung.last]
  rfl

/-- A node that has another one behind it on the string. -/
theorem next_head (strung : s.Strung q (a :: b :: nodes)) : s.next a = .before b :=
  (List.isChain_cons_cons.1 strung.behind).1

theorem head_eq (strung : s.Strung q (a :: nodes)) : s.head q = a :=
  (Option.some.inj strung.head).symm

/-- A node is hung on behind the newest one. -/
theorem snoc (strung : s.Strung q nodes) (new : b ∉ nodes) :
    ((s.setNext b .last).link q b).Strung q (nodes ++ [b]) := by
  have inside : s.tail q ∈ nodes := List.mem_of_getLast? strung.tail
  have different : b ≠ s.tail q := fun same => new (same ▸ inside)
  constructor
  case head => simp [strung.head]
  case tail => simp
  case behind =>
    refine List.isChain_append.2 ⟨?_, List.isChain_singleton b, ?_⟩
    · refine strung.behind.imp_of_mem_imp fun a c old _ link => ?_
      -- Only the newest node and `b` were written, and neither has a node behind it on the old string.
      have other : a ≠ b := fun same => new (same ▸ old)
      have early : a ≠ s.tail q := by
        rintro rfl
        simp [strung.last] at link
      simp [other, early, link]
    · intro a isLast c isHead
      rw [strung.tail] at isLast
      obtain rfl := Option.some.inj isLast
      obtain rfl := Option.some.inj isHead
      simp
  case last => simp [different]
  case once =>
    exact List.nodup_append.2 ⟨strung.once, by simp, by
      rintro a old c single rfl
      exact new (List.mem_singleton.1 single ▸ old)⟩

/-- The oldest node is taken off. -/
theorem uncons (strung : s.Strung q (a :: b :: nodes)) (link : Link n m) :
    ((s.setHead q b).setNext a link).Strung q (b :: nodes) := by
  have apart : a ∉ b :: nodes := (List.nodup_cons.1 strung.once).1
  have newest : (b :: nodes).getLast? = some (s.tail q) := by
    rw [← strung.tail, List.getLast?_cons_cons]
  have different : s.tail q ≠ a := fun same => apart (same ▸ List.mem_of_getLast? newest)
  constructor
  case head => simp
  case tail => simpa using newest
  case behind =>
    refine (List.isChain_cons_cons.1 strung.behind).2.imp_of_mem_imp fun c d inside _ link => ?_
    have other : c ≠ a := fun same => apart (same ▸ inside)
    simp [other, link]
  case last => simp [different, strung.last]
  case once => exact (List.nodup_cons.1 strung.once).2

end Strung

end Tasking.Queue.Links
