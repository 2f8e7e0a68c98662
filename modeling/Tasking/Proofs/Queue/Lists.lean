import Mathlib.Data.Fintype.Card
import Mathlib.Logic.Function.Basic
import Tasking.Proofs.Queue.Strung

/-! # Queues are lists

Seen from outside, the links of items are nothing but one list for each queue, with no item in two lists or
twice in one (`Lists`).  Whatever is done with the queues, one thing after another, the replies are those
of the lists, and the links keep saying what the lists say (`Links.replies_of_lists`).

The stub is either the oldest node of its queue, or was stepped over and is not in it (`Links.Shows`).
-/

namespace Tasking.Queue

variable {n m : Nat}

/-- What can be done with queues and items. -/
inductive Operation (n m : Nat) where
  | put (q : Fin m) (i : Fin n)
  | get (q : Fin m)
  | peek (q : Fin m)
  | length (q : Fin m)
  | isEmpty (q : Fin m)
  | isLinked (i : Fin n)
  | drop (q : Fin m)

inductive Reply (n : Nat) where
  | done
  | refused (fault : Fault)
  | taken (taken : Taken n)
  | oldest (item : Option (Fin n))
  | length (length : Nat)
  | flag (flag : Bool)
  deriving DecidableEq

/-- The reply to an operation, and the links after it.  What is refused changes nothing. -/
def Links.perform (s : Links n m) : Operation n m → Reply n × Links n m
  | .put q i =>
    match s.put q i with
    | .ok s => (.done, s)
    | .error fault => (.refused fault, s)
  | .get q => let (taken, s) := s.get q; (.taken taken, s)
  | .peek q => (.oldest (s.peek q), s)
  | .length q => (.length (s.length q), s)
  | .isEmpty q => (.flag (s.isEmpty q), s)
  | .isLinked i => (.flag (s.isLinked i), s)
  | .drop q => (.done, s.drop q)

/-- The replies to some operations, one after another, and the links after them. -/
def Links.performAll (s : Links n m) : List (Operation n m) → List (Reply n) × Links n m
  | [] => ([], s)
  | operation :: rest =>
    let (reply, s) := s.perform operation
    let (replies, s) := s.performAll rest
    (reply :: replies, s)

/-! ## Lists of items -/

/-- One list of items for each queue.  No item is in two of them, or twice in one. -/
structure Lists (n m : Nat) where
  list : Fin m → List (Fin n)
  once : ∀ q, (list q).Nodup
  apart : ∀ {q p i}, i ∈ list q → i ∈ list p → q = p

namespace Lists

def empty : Lists n m where
  list _ := []
  once _ := List.nodup_nil
  apart inside := by cases inside

/-- An item that is in no list comes to the end of one. -/
def append (l : Lists n m) (q : Fin m) (i : Fin n) (free : ∀ p, i ∉ l.list p) : Lists n m where
  list := Function.update l.list q (l.list q ++ [i])
  once p := by
    rw [Function.update_apply]
    split
    · apply List.nodup_append.2 ⟨l.once q, by simp, ?_⟩
      rintro j old k single rfl
      exact free q (List.mem_singleton.1 single ▸ old)
    · exact l.once p
  apart {p p' j} inside inside' := by
    have elsewhere : ∀ {r}, j ∈ Function.update l.list q (l.list q ++ [i]) r → j ∈ l.list r ∨ j = i ∧ r = q := by
      intro r inside
      rw [Function.update_apply] at inside
      split at inside
      · next same =>
        cases List.mem_append.1 inside with
        | inl old => exact .inl (same ▸ old)
        | inr single => exact .inr ⟨List.mem_singleton.1 single, same⟩
      · exact .inl inside
    cases elsewhere inside with
    | inl old =>
      cases elsewhere inside' with
      | inl old' => exact l.apart old old'
      | inr new' => exact absurd (new'.1 ▸ old) (free p)
    | inr new =>
      cases elsewhere inside' with
      | inl old' => exact absurd (new.1 ▸ old') (free p')
      | inr new' => exact new.2.trans new'.2.symm

/-- Items leave a list. -/
def shorten (l : Lists n m) (q : Fin m) (rest : List (Fin n)) (fewer : rest.Sublist (l.list q)) :
    Lists n m where
  list := Function.update l.list q rest
  once p := by
    rw [Function.update_apply]
    split
    · exact (l.once q).sublist fewer
    · exact l.once p
  apart {p p' j} inside inside' := by
    have before : ∀ {r}, j ∈ Function.update l.list q rest r → j ∈ l.list r := by
      intro r inside
      rw [Function.update_apply] at inside
      split at inside
      · next same => exact same ▸ fewer.subset inside
      · exact inside
    exact l.apart (before inside) (before inside')

theorem shorten_empty (l : Lists n m) {q : Fin m} (line : l.list q = []) :
    l.shorten q [] (List.nil_sublist _) = l := by
  obtain ⟨list, once, apart⟩ := l
  simp only [shorten, mk.injEq]
  exact Function.update_eq_self_iff.2 line.symm

theorem shorten_shorten (l : Lists n m) {q : Fin m} {rest rest' : List (Fin n)}
    (fewer : rest.Sublist (l.list q)) (fewer' : rest'.Sublist ((l.shorten q rest fewer).list q)) :
    (l.shorten q rest fewer).shorten q rest' fewer' =
      l.shorten q rest' ((by simpa [shorten] using fewer' : rest'.Sublist rest).trans fewer) := by
  simp only [shorten, Function.update_idem]

/-- The reply to an operation, and the lists after it. -/
def perform (l : Lists n m) : Operation n m → Reply n × Lists n m
  | .put q i =>
    if free : ∀ p, i ∉ l.list p then (.done, l.append q i free) else (.refused .alreadyLinked, l)
  | .get q =>
    match line : l.list q with
    | [] => (.taken .nothing, l)
    | i :: rest => (.taken (.item i), l.shorten q rest (line ▸ List.sublist_cons_self i rest))
  | .peek q => (.oldest (l.list q).head?, l)
  | .length q => (.length (l.list q).length, l)
  | .isEmpty q => (.flag (l.list q).isEmpty, l)
  | .isLinked i => (.flag (decide (∃ q, i ∈ l.list q)), l)
  | .drop q => (.done, l.shorten q [] (List.nil_sublist _))

/-- The replies to some operations, one after another, and the lists after them. -/
def performAll (l : Lists n m) : List (Operation n m) → List (Reply n) × Lists n m
  | [] => ([], l)
  | operation :: rest =>
    let (reply, l) := l.perform operation
    let (replies, l) := l.performAll rest
    (reply :: replies, l)

end Lists

/-! ## What links say -/

/-- The item of a node that is not a stub. -/
def Node.item? : Node n m → Option (Fin n)
  | .item i => some i
  | .stub _ => none

/-- The nodes of a queue are those of its items in order.  The queue's stub may be anywhere among them, or
nowhere. -/
structure IsShape (q : Fin m) (items : List (Fin n)) (nodes : List (Node n m)) : Prop where
  items : nodes.filterMap Node.item? = items
  stub : ∀ p, .stub p ∈ nodes → p = q

namespace IsShape

variable {q : Fin m} {i : Fin n} {items : List (Fin n)} {nodes : List (Node n m)}

theorem item_mem (shape : IsShape q items nodes) : .item i ∈ nodes ↔ i ∈ items := by
  rw [← shape.items, List.mem_filterMap]
  constructor
  · exact fun inside => ⟨_, inside, rfl⟩
  · rintro ⟨a, inside, is⟩
    cases a with
    | stub p => cases is
    | item j => exact Option.some.inj is ▸ inside

theorem snoc_item (shape : IsShape q items nodes) : IsShape q (items ++ [i]) (nodes ++ [.item i]) where
  items := by simp [shape.items, Node.item?]
  stub p inside := shape.stub p (by simpa using inside)

theorem snoc_stub (shape : IsShape q items nodes) : IsShape q items (nodes ++ [.stub q]) where
  items := by simp [shape.items, Node.item?]
  stub p inside := by
    cases List.mem_append.1 inside with
    | inl old => exact shape.stub p old
    | inr new => simpa using new

theorem of_item {j : Fin n} (shape : IsShape q (i :: items) (.item j :: nodes)) :
    j = i ∧ IsShape q items nodes := by
  have same := shape.items
  simp only [List.filterMap_cons, Node.item?, List.cons.injEq] at same
  exact ⟨same.1, same.2, fun p inside => shape.stub p (List.mem_cons_of_mem _ inside)⟩

theorem of_stub {p : Fin m} (shape : IsShape q items (.stub p :: nodes)) : p = q ∧ IsShape q items nodes := by
  refine ⟨shape.stub p List.mem_cons_self, ?_, fun r inside => shape.stub r (List.mem_cons_of_mem _ inside)⟩
  have same := shape.items
  rwa [List.filterMap_cons] at same

theorem cons_stub (shape : IsShape q items nodes) : IsShape q items (.stub q :: nodes) where
  items := (List.filterMap_cons_none rfl).trans shape.items
  stub p inside := by
    cases List.mem_cons.1 inside with
    | inl own => simpa using own
    | inr old => exact shape.stub p old

end IsShape

namespace Links

variable {s s' : Links n m} {l : Lists n m} {q p : Fin m} {i : Fin n} {a b : Node n m}
  {nodes nodes' : List (Node n m)}

/-- The links say what the lists say. -/
structure Shows (s : Links n m) (l : Lists n m) : Prop where
  strung : ∀ q, ∃ nodes, IsShape q (l.list q) nodes ∧ s.Strung q nodes
  counted : ∀ q, s.count q = (l.list q).length
  detached : ∀ i, s.next (.item i) = .detached ↔ ∀ q, i ∉ l.list q

theorem shows_initial : (Links.initial n m).Shows .empty where
  strung q := by
    refine ⟨[.stub q], ⟨rfl, by simp⟩, ?_⟩
    constructor <;> simp [initial, head, tail, next]
  counted q := by simp [initial, count, Lists.empty]
  detached i := by simp [initial, next, Lists.empty]

/-- The nodes of two queues are different ones. -/
theorem not_mem_other (other : p ≠ q) (shape : IsShape p (l.list p) nodes)
    (shape' : IsShape q (l.list q) nodes') (inside : a ∈ nodes) : a ∉ nodes' := by
  intro inside'
  cases a with
  | stub r => exact other ((shape.stub r inside).symm.trans (shape'.stub r inside'))
  | item j => exact other (l.apart (shape.item_mem.1 inside) (shape'.item_mem.1 inside'))

namespace Shows

/-- Hanging a node on behind the newest one of a queue leaves the other queues alone. -/
theorem strung_link (shows : s.Shows l) (other : p ≠ q)
    (new : ∀ {nodes}, IsShape p (l.list p) nodes → b ∉ nodes) :
    ∃ nodes, IsShape p (l.list p) nodes ∧ ((s.setNext b .last).link q b).Strung p nodes := by
  obtain ⟨nodes, shape, strung⟩ := shows.strung p
  obtain ⟨nodes', shape', strung'⟩ := shows.strung q
  refine ⟨nodes, shape, strung.congr (by simp) (by simp [other]) fun a inside => ?_⟩
  -- Only `b` and the newest node of the other queue were written.
  have fresh : a ≠ b := fun same => new shape (same ▸ inside)
  have elsewhere : a ≠ s.tail q := by
    rintro rfl
    exact not_mem_other other shape shape' inside (List.mem_of_getLast? strung'.tail)
  simp [fresh, elsewhere]

/-! ### Putting -/

theorem put_linked (shows : s.Shows l) (linked : ¬ ∀ p, i ∉ l.list p) :
    s.put q i = .error .alreadyLinked := by
  have link : s.next (.item i) ≠ .detached := fun detached => linked ((shows.detached i).1 detached)
  unfold Links.put
  split
  · next detached => exact absurd detached link
  · rfl

theorem put_free (shows : s.Shows l) (free : ∀ p, i ∉ l.list p) :
    ∃ s', s.put q i = .ok s' ∧ s'.Shows (l.append q i free) := by
  have detached := (shows.detached i).2 free
  have new : ∀ {p nodes}, IsShape p (l.list p) nodes → .item i ∉ nodes :=
    fun shape inside => free _ (shape.item_mem.1 inside)
  obtain ⟨nodes, shape, strung⟩ := shows.strung q
  have newest : s.tail q ∈ nodes := List.mem_of_getLast? strung.tail
  refine ⟨_, by rw [Links.put, detached], ?_⟩
  constructor
  case strung =>
    intro p
    by_cases same : p = q
    · subst same
      refine ⟨nodes ++ [.item i], ?_, (strung.snoc (new shape)).congr (by simp) (by simp) (by simp)⟩
      simpa [Lists.append] using shape.snoc_item
    · obtain ⟨nodes, shape, strung⟩ := shows.strung_link same new
      refine ⟨nodes, ?_, strung.congr (by simp) (by simp) (by simp)⟩
      simpa [Lists.append, same] using shape
  case counted =>
    intro p
    by_cases same : p = q
    · subst same
      simp [Lists.append, shows.counted]
    · simp [Lists.append, shows.counted, same]
  case detached =>
    intro j
    by_cases fresh : j = i
    · subst fresh
      have apart : .item j ≠ s.tail q := fun is => new shape (is ▸ newest)
      have inside : ¬ ∀ p, j ∉ (l.append q j free).list p := fun gone => gone q (by simp [Lists.append])
      simp [apart, inside]
    · have still : (∀ p, j ∉ (l.append q i free).list p) ↔ ∀ p, j ∉ l.list p := by
        refine forall_congr' fun p => not_congr ?_
        by_cases same : p = q
        · subst same
          simp [Lists.append, fresh]
        · simp [Lists.append, same]
      rw [still, ← shows.detached]
      -- The newest node was linked before, and is linked now.
      by_cases last : .item j = s.tail q
      · simp [last, strung.last]
      · simp [last, fresh]

/-! ### Taking -/

/-- The oldest node of a queue is an item that has a node behind it, and leaves. -/
theorem leave {rest : List (Fin n)} (shows : s.Shows l) (line : l.list q = i :: rest)
    (strung : s.Strung q (.item i :: a :: nodes)) (shape : IsShape q rest (a :: nodes))
    (fewer : rest.Sublist (l.list q)) :
    (((s.setHead q a).setNext (.item i) .detached).addCount q (-1)).Shows (l.shorten q rest fewer) := by
  have own : i ∈ l.list q := by simp [line]
  have gone : i ∉ rest := (List.nodup_cons.1 (line ▸ l.once q)).1
  constructor
  case strung =>
    intro p
    by_cases same : p = q
    · subst same
      refine ⟨a :: nodes, ?_, (strung.uncons .detached).congr (by simp) (by simp) (by simp)⟩
      simpa [Lists.shorten] using shape
    · obtain ⟨nodes, shape, strung⟩ := shows.strung p
      have outside : .item i ∉ nodes := fun inside => same (l.apart (shape.item_mem.1 inside) own)
      refine ⟨nodes, by simpa [Lists.shorten, same] using shape, ?_⟩
      apply strung.congr (by simp [same]) (by simp)
      intro b inside
      have other : b ≠ .item i := fun is => outside (is ▸ inside)
      simp [other]
  case counted =>
    intro p
    by_cases same : p = q
    · subst same
      have length := shows.counted p
      rw [line, List.length_cons] at length
      simp only [Lists.shorten, Function.update_self, count_addCount, count_setNext, count_setHead, if_true]
      omega
    · simp [Lists.shorten, shows.counted, same]
  case detached =>
    intro j
    by_cases same : j = i
    · subst same
      have free : ∀ p, j ∉ (l.shorten q rest fewer).list p := by
        intro p inside
        by_cases here : p = q
        · subst here
          exact gone (by simpa [Lists.shorten] using inside)
        · exact here (l.apart (by simpa [Lists.shorten, here] using inside) own)
      simp [free]
    · have still : (∀ p, j ∉ (l.shorten q rest fewer).list p) ↔ ∀ p, j ∉ l.list p := by
        refine forall_congr' fun p => not_congr ?_
        by_cases here : p = q
        · subst here
          simp [Lists.shorten, line, same]
        · simp [Lists.shorten, here]
      rw [still, ← shows.detached]
      simp [same]

/-- The stub of a queue is hung on behind its newest node. -/
theorem linkStub (shows : s.Shows l) (shape : IsShape q (l.list q) nodes) (strung : s.Strung q nodes)
    (out : .stub q ∉ nodes) : ((s.setNext (.stub q) .last).link q (.stub q)).Shows l where
  strung p := by
    by_cases same : p = q
    · subst same
      exact ⟨_, shape.snoc_stub, strung.snoc out⟩
    · exact shows.strung_link same fun shape inside => same (shape.stub q inside).symm
  counted p := by simp [shows.counted]
  detached j := by
    rw [← shows.detached]
    by_cases last : .item j = s.tail q
    · simp [last, strung.last]
    · simp [last]

/-- A queue whose oldest node is an item gives that item. -/
theorem popNode {rest : List (Fin n)} (shows : s.Shows l) (line : l.list q = i :: rest)
    (shape : IsShape q (i :: rest) (.item i :: nodes)) (strung : s.Strung q (.item i :: nodes))
    (fewer : rest.Sublist (l.list q)) :
    ∃ s', s.popNode q (.item i) = (.item i, s') ∧ (s'.addCount q (-1)).Shows (l.shorten q rest fewer) := by
  cases nodes with
  | cons a nodes =>
    have link := strung.next_head
    refine ⟨_, ?_, shows.leave line strung shape.of_item.2 fewer⟩
    simp [Links.popNode, link, Link.successor?, detach]
  | nil =>
    -- The stub is hung on behind the last item, and is the oldest node once the item has left.
    have out : .stub q ∉ [Node.item (m := m) i] := by simp
    have last : s.tail q = .item i := (Option.some.inj strung.tail).symm
    have link : s.next (.item i) = .last := last ▸ strung.last
    have longer := strung.snoc out
    have link' := longer.next_head
    have shows' := shows.linkStub (line ▸ shape) strung out
    refine ⟨_, ?_, shows'.leave line longer shape.snoc_stub.of_item.2 fewer⟩
    simp [Links.popNode, link, link', last, Link.successor?, detach]

/-- The stub is the oldest node of a queue and is stepped over. -/
theorem stepOver (shows : s.Shows l) (shape : IsShape q (l.list q) (.stub q :: a :: nodes))
    (strung : s.Strung q (.stub q :: a :: nodes)) :
    (s.setHead q a).Shows l ∧ (s.setHead q a).Strung q (a :: nodes) := by
  have shorter : (s.setHead q a).Strung q (a :: nodes) :=
    (strung.uncons .last).congr (by simp) (by simp) fun b inside => by
      have other : b ≠ .stub q := fun is => (List.nodup_cons.1 strung.once).1 (is ▸ inside)
      simp [other]
  refine ⟨⟨fun p => ?_, fun p => by simp [shows.counted], fun j => by simp [shows.detached]⟩, shorter⟩
  by_cases same : p = q
  · subst same
    exact ⟨a :: nodes, shape.of_stub.2, shorter⟩
  · obtain ⟨nodes, shape, strung⟩ := shows.strung p
    exact ⟨nodes, shape, strung.congr (by simp [same]) (by simp) (by simp)⟩

/-- What the oldest nodes of a queue are: its stub alone, or its oldest item, maybe behind the stub. -/
inductive Front (s : Links n m) (q : Fin m) : List (Fin n) → Prop where
  | empty (strung : s.Strung q [.stub q]) : Front s q []
  | item {i : Fin n} {rest : List (Fin n)} {nodes : List (Node n m)}
      (shape : IsShape q (i :: rest) (.item i :: nodes)) (strung : s.Strung q (.item i :: nodes)) :
      Front s q (i :: rest)
  | behind {i : Fin n} {rest : List (Fin n)} {nodes : List (Node n m)}
      (shape : IsShape q (i :: rest) (.item i :: nodes))
      (strung : s.Strung q (.stub q :: .item i :: nodes)) : Front s q (i :: rest)

theorem front (shows : s.Shows l) (q : Fin m) : Front s q (l.list q) := by
  obtain ⟨nodes, shape, strung⟩ := shows.strung q
  rw [← shape.items]
  cases nodes with
  | nil => cases strung.head
  | cons a nodes =>
    cases a with
    | item i => exact .item ⟨rfl, shape.stub⟩ strung
    | stub p =>
      obtain ⟨rfl, shape⟩ := shape.of_stub
      cases nodes with
      | nil => exact .empty strung
      | cons a nodes =>
        cases a with
        | item i => exact .behind ⟨rfl, shape.stub⟩ strung
        | stub r =>
          obtain rfl := shape.of_stub.1
          exact absurd strung.once (by simp)

theorem get_none (shows : s.Shows l) (line : l.list q = []) : s.get q = (.nothing, s) := by
  have front := shows.front q
  rw [line] at front
  cases front with
  | empty strung =>
    have last : s.tail q = .stub q := (Option.some.inj strung.tail).symm
    have link : s.next (.stub q) = .last := last ▸ strung.last
    simp [Links.get, Links.pop, strung.head_eq, last, link, Link.successor?]

theorem get_some {rest : List (Fin n)} (shows : s.Shows l) (line : l.list q = i :: rest)
    (fewer : rest.Sublist (l.list q)) :
    ∃ s', s.get q = (.item i, s') ∧ s'.Shows (l.shorten q rest fewer) := by
  have front := shows.front q
  rw [line] at front
  cases front with
  | item shape strung =>
    obtain ⟨s', pops, shows'⟩ := shows.popNode line shape strung fewer
    refine ⟨_, ?_, shows'⟩
    simp [Links.get, Links.pop, strung.head_eq, pops]
  | behind shape strung =>
    have link := strung.next_head
    have shape' : IsShape q (l.list q) _ := line ▸ shape.cons_stub
    obtain ⟨beyond, strung'⟩ := shows.stepOver shape' strung
    obtain ⟨s', pops, shows'⟩ := beyond.popNode line shape strung' fewer
    refine ⟨_, ?_, shows'⟩
    simp [Links.get, Links.pop, strung.head_eq, link, Link.successor?, pops]

/-! ### Looking -/

theorem peek_eq (shows : s.Shows l) (q : Fin m) : s.peek q = (l.list q).head? := by
  have front := shows.front q
  generalize l.list q = line at front
  cases front with
  | empty strung =>
    have last : s.tail q = .stub q := (Option.some.inj strung.tail).symm
    have link : s.next (.stub q) = .last := last ▸ strung.last
    simp [Links.peek, strung.head_eq, link, Link.successor?]
  | item shape strung => simp [Links.peek, strung.head_eq]
  | behind shape strung => simp [Links.peek, strung.head_eq, strung.next_head, Link.successor?]

theorem length_eq (shows : s.Shows l) (q : Fin m) : s.length q = (l.list q).length := by
  have counted : s.queues[q].count = _ := shows.counted q
  rw [Links.length, counted, Int.toNat_natCast]

theorem isEmpty_eq (shows : s.Shows l) (q : Fin m) : s.isEmpty q = (l.list q).isEmpty := by
  have front := shows.front q
  generalize l.list q = line at front
  cases front with
  | empty strung =>
    have last : s.tail q = .stub q := (Option.some.inj strung.tail).symm
    simp [Links.isEmpty, strung.head_eq, last]
  | item shape strung => simp [Links.isEmpty, strung.head_eq]
  | behind shape strung =>
    -- The newest node is behind the stub.
    have apart : s.tail q ≠ .stub q := by
      intro same
      have newest := strung.tail
      rw [same, List.getLast?_cons_cons] at newest
      exact (List.nodup_cons.1 strung.once).1 (List.mem_of_getLast? newest)
    simp [Links.isEmpty, apart]

theorem isLinked_eq (shows : s.Shows l) (i : Fin n) : s.isLinked i = decide (∃ q, i ∈ l.list q) := by
  have detached : s.items[i] = .detached ↔ _ := shows.detached i
  rw [Links.isLinked, decide_eq_decide, ne_eq, detached]
  simp

/-! ### Dropping -/

/-- A queue with no more items than rounds is taken empty. -/
theorem drainUpTo {rounds : Nat} (shows : s.Shows l) (enough : (l.list q).length ≤ rounds) :
    (s.drainUpTo q rounds).2.Shows (l.shorten q [] (List.nil_sublist _)) := by
  induction rounds generalizing s l with
  | zero =>
    have line : l.list q = [] := by simpa using enough
    rw [l.shorten_empty line]
    exact shows
  | succ rounds inductionHypothesis =>
    rw [Links.drainUpTo]
    by_cases line : l.list q = []
    · rw [shows.get_none line, l.shorten_empty line]
      exact shows
    · obtain ⟨i, rest, line⟩ := List.exists_cons_of_ne_nil line
      have fewer : rest.Sublist (l.list q) := line ▸ List.sublist_cons_self i rest
      obtain ⟨s', gets, shows'⟩ := shows.get_some line fewer
      rw [gets]
      have drained := inductionHypothesis shows' (by simpa [Lists.shorten, line] using enough)
      rwa [Lists.shorten_shorten] at drained

theorem drop (shows : s.Shows l) (q : Fin m) :
    (s.drop q).Shows (l.shorten q [] (List.nil_sublist _)) := by
  apply shows.drainUpTo
  -- A list without repetition has no more items than there are.
  have fits := List.Nodup.length_le_card (l.once q)
  rwa [Fintype.card_fin] at fits

/-! ## Replies -/

theorem perform (shows : s.Shows l) (operation : Operation n m) :
    (s.perform operation).1 = (l.perform operation).1 ∧
      (s.perform operation).2.Shows (l.perform operation).2 := by
  cases operation with
  | put q i =>
    by_cases free : ∀ p, i ∉ l.list p
    · obtain ⟨s', puts, shows'⟩ := shows.put_free (q := q) free
      rw [Links.perform, puts, Lists.perform, dif_pos free]
      exact ⟨rfl, shows'⟩
    · rw [Links.perform, shows.put_linked free, Lists.perform, dif_neg free]
      exact ⟨rfl, shows⟩
  | get q =>
    simp only [Links.perform, Lists.perform]
    split
    · next line =>
      rw [shows.get_none line]
      exact ⟨rfl, shows⟩
    · next i rest line =>
      obtain ⟨s', gets, shows'⟩ := shows.get_some line (line ▸ List.sublist_cons_self i rest)
      rw [gets]
      exact ⟨rfl, shows'⟩
  | peek q => exact ⟨congrArg _ (shows.peek_eq q), shows⟩
  | length q => exact ⟨congrArg _ (shows.length_eq q), shows⟩
  | isEmpty q => exact ⟨congrArg _ (shows.isEmpty_eq q), shows⟩
  | isLinked i => exact ⟨congrArg _ (shows.isLinked_eq i), shows⟩
  | drop q => exact ⟨rfl, shows.drop q⟩

theorem performAll (shows : s.Shows l) (operations : List (Operation n m)) :
    (s.performAll operations).1 = (l.performAll operations).1 ∧
      (s.performAll operations).2.Shows (l.performAll operations).2 := by
  induction operations generalizing s l with
  | nil => exact ⟨rfl, shows⟩
  | cons operation rest inductionHypothesis =>
    obtain ⟨reply, shows'⟩ := shows.perform operation
    obtain ⟨replies, shows''⟩ := inductionHypothesis shows'
    exact ⟨by simp only [Links.performAll, Lists.performAll, reply, replies], shows''⟩

end Shows

/-- Whatever is done with any number of queues and items, the replies are those of disjoint lists, first
in first out.  Afterwards the nodes of each queue hang together from its oldest to its newest and are those
of its list; an item is linked exactly if it is in a list, and then it is in one only; and putting it into
any queue is refused and changes nothing. -/
theorem replies_of_lists (operations : List (Operation n m)) :
    let (replies, s) := (Links.initial n m).performAll operations
    let (replies', l) := Lists.empty.performAll operations
    replies = replies' ∧ s.Shows l ∧
      ∀ i, (s.isLinked i = true ↔ ∃! q, i ∈ l.list q) ∧
        (s.isLinked i = true → ∀ q, s.perform (.put q i) = (.refused .alreadyLinked, s)) := by
  obtain ⟨replies, shows⟩ := shows_initial.performAll operations
  refine ⟨replies, shows, fun i => ?_⟩
  rw [shows.isLinked_eq, decide_eq_true_iff]
  constructor
  · constructor
    · rintro ⟨q, inside⟩
      exact ⟨q, inside, fun p inside' => Lists.apart _ inside' inside⟩
    · exact fun ⟨q, inside, _⟩ => ⟨q, inside⟩
  · rintro ⟨p, inside⟩ q
    rw [Links.perform, shows.put_linked fun free => free p inside]

end Links

end Tasking.Queue
