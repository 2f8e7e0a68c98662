import Tasking.Task
import Tasking.Text.Quoted

/-! # Exclusive resources

A resource has at most one owning task and a queue of tasks that wait for it.  A task
that asks for a resource it owns waits for itself: resources are not reentrant.

An `Exclusive` is a payload that only the owner of its resource may open, one use at a
time.
-/

namespace Tasking

/-- A resource. -/
structure Resource where
  name : Option String
  owner : Option TaskId
  /-- The tasks that wait for it, in the order in which they asked. -/
  waiters : Line TaskId
  deriving DecidableEq

/-- A resource that nobody owns. -/
def Resource.new (name : Option String) : Resource := ⟨name, none, .empty⟩

/-- A resource in diagnostics. -/
def Resource.diagnostic (resource : Resource) (r : ResourceId) : String :=
  Text.record "ExclusiveResource"
    [("id", r.diagnostic),
     ("name", Text.optional (resource.name.map Text.quoted)),
     ("owner", Text.optional (resource.owner.map TaskId.diagnostic)),
     ("waiters", toString resource.waiters.length)]

/-- The result of asking for a resource that may be taken. -/
inductive Grant where
  /-- The task owns the resource now. -/
  | acquired
  /-- The task is queued and must suspend; it is woken as the owner. -/
  | blocked
  deriving DecidableEq

/-- A payload behind a resource. -/
structure Exclusive (V : Type) where
  resource : ResourceId
  payload : V
  /-- Somebody has the payload open. -/
  inUse : Bool

/-- A payload that nobody has open. -/
def Exclusive.new {V : Type} (r : ResourceId) (payload : V) : Exclusive V := ⟨r, payload, false⟩

/-- Change a payload that nothing else can reach. -/
def Exclusive.update {V : Type} (x : Exclusive V) (f : V → V) : Exclusive V :=
  { x with payload := f x.payload }

/-- An actor: state behind a resource, and what it does with a message. -/
structure Actor (H : Type) where
  state : ExclusiveId
  handler : H

/-- A payload in diagnostics, by its resource. -/
def Exclusive.diagnostic (resource : Resource) (r : ResourceId) : String :=
  Text.openRecord "Exclusive" [("resource", resource.diagnostic r)]

/-- An actor in diagnostics, by its resource. -/
def Actor.diagnostic (resource : Resource) (r : ResourceId) : String :=
  Text.openRecord "Actor" [("resource", resource.diagnostic r)]

end Tasking
