import Tasking.Proofs.Calling
import Tasking.Proofs.Strides
import Tasking.Scenario.Pingpong

/-! # What a player has in hand

A run of a player touches few things: its task, the cell that counts its resumes, the frames of the message that it
sends, and the lock and the state of the actor.  `Hand` is what these are at some moment of the run, and `Hand.on`
puts them into the state in which the run began.  Whatever the run does is a change of the hand.
-/

namespace Tasking.Scenario.Pingpong

open State

/-- A frame of the scenario. -/
abbrev Sheet := Frame Datum (Body Datum Nat)

namespace Shot

/-- The number of a player, of its task and of its cell. -/
def number : Shot → Nat
  | ping => 1
  | pong => 2

/-- The task of the player with this shot. -/
def task (p : Shot) : TaskId := ⟨p.number⟩

/-- The cell that counts the resumes of the player. -/
def cell (p : Shot) : CellId := ⟨p.number⟩

theorem task_inj {p q : Shot} (same : p.task = q.task) : p = q := by
  cases p <;> cases q <;> first | rfl | cases same

theorem cell_inj {p q : Shot} (same : p.cell = q.cell) : p = q := by
  cases p <;> cases q <;> first | rfl | cases same

end Shot

/-- The actor, its state, and the resource behind which it is. -/
def actor : ActorId := ⟨1⟩
def score : ExclusiveId := ⟨1⟩
def lock : ResourceId := ⟨1⟩

/-- The frame of a player. -/
def playerSheet (rounds : Nat) (p : Shot) : Sheet := ⟨"player", none, .host (player actor p rounds p.cell)⟩

/-- The frame that delivers a shot, and the guard that it runs in. -/
def bodySheet (p : Shot) (caller : Option FrameId) (delivered : Bool) : Sheet :=
  ⟨"actor-message", caller, .message actor (.shot p) delivered⟩

def guardSheet (caller : Option FrameId) (phase : Phase Datum) : Sheet :=
  ⟨"scoped-acquire", caller, .guard lock phase⟩

/-- The frames of a message. -/
structure Letter where
  body : Sheet
  guard : Sheet

/-- The frames with those of a message, if there is one. -/
def withLetter (frames : Table .frame Sheet) : Option Letter → Table .frame Sheet
  | none => frames
  | some letter => (frames.add letter.body).add letter.guard

/-- What a run of a player touches: the task with the top of its chain and the value for it, the count of resumes, the
message that was made, who has the lock, and the state of the actor. -/
structure Hand where
  base : Task Datum
  top : FrameId
  value : Datum
  resumes : Nat
  letter : Option Letter
  owner : Option TaskId
  rally : Rally
  inUse : Bool

namespace Hand

/-- The task of the player. -/
def task (hand : Hand) : Task Datum := { hand.base with top := some hand.top, value := hand.value, error := none }

/-- The state with what the player has in hand. -/
def on (hand : Hand) (p : Shot) (st : State Datum Nat) : State Datum Nat :=
  { st with
    tasks := st.tasks.modify p.task fun _ => hand.task
    cells := st.cells.modify p.cell fun _ => hand.resumes
    frames := withLetter st.frames hand.letter
    resources := st.resources.modify lock fun _ => ⟨none, hand.owner, .empty⟩
    exclusives := st.exclusives.modify score fun _ => ⟨lock, .rally hand.rally, hand.inUse⟩ }

end Hand

/-- What a run of a player finds. -/
structure Laid (rounds : Nat) (p : Shot) (entry : FrameId) (st : State Datum Nat) : Prop where
  task : (st.tasks.get? p.task).isSome = true
  cell : (st.cells.get? p.cell).isSome = true
  entry : st.frames.get? entry = some (playerSheet rounds p)
  lock : (st.resources.get? lock).isSome = true
  score : (st.exclusives.get? score).isSome = true
  actor : st.actors.get? actor = some ⟨Pingpong.score, handler⟩

/-- The number of the frame that delivers the next message, and of its guard. -/
def nextBody (st : State Datum Nat) : FrameId := st.frames.next
def nextGuard (st : State Datum Nat) : FrameId := ⟨st.frames.size + 2⟩

/-! ## Frames -/

section

variable (frames : Table .frame Sheet) (body guard : Sheet) (f : Sheet → Sheet)

theorem next_add : (frames.add body).next = ⟨frames.size + 2⟩ := by
  simp [Table.add, Table.next, Table.size]

theorem next_ne : frames.next ≠ ⟨frames.size + 2⟩ := by
  simp [Table.next, Table.size]

theorem get?_letter (i : FrameId) : ((frames.add body).add guard).get? i =
    if i = ⟨frames.size + 2⟩ then some guard else if i = frames.next then some body else frames.get? i := by
  rw [Table.get?_add_eq, next_add, Table.get?_add_eq]

theorem modify_body : ((frames.add body).add guard).modify frames.next f = (frames.add (f body)).add guard := by
  refine Table.ext_get? fun i => ?_
  rw [Table.get?_modify, get?_letter, get?_letter, get?_letter, if_neg (next_ne frames), if_pos rfl]
  by_cases here : i = frames.next
  · rw [here, if_pos rfl, if_neg (next_ne frames), if_pos rfl]
    rfl
  · simp only [if_neg here]

theorem modify_guard :
    ((frames.add body).add guard).modify ⟨frames.size + 2⟩ f = (frames.add body).add (f guard) := by
  refine Table.ext_get? fun i => ?_
  rw [Table.get?_modify, get?_letter, get?_letter, get?_letter, if_pos rfl]
  split <;> rfl

end

namespace Hand

variable {p : Shot} {st : State Datum Nat} {rounds : Nat} {entry top : FrameId} {letter : Letter} {base : Task Datum}
  {value : Datum} {resumes : Nat} {owner : Option TaskId} {rally : Rally} {inUse : Bool}

/-! ## What is in hand -/

section

variable (laid : Laid rounds p entry st) (hand : Hand)
include laid

theorem get?_task : (hand.on p st).tasks.get? p.task = some hand.task := by
  obtain ⟨task, found⟩ := Option.isSome_iff_exists.1 laid.task
  simp [on, found]

theorem get?_cell : (hand.on p st).cells.get? p.cell = some hand.resumes := by
  obtain ⟨content, found⟩ := Option.isSome_iff_exists.1 laid.cell
  simp [on, found]

theorem get?_lock : (hand.on p st).resources.get? lock = some ⟨none, hand.owner, .empty⟩ := by
  obtain ⟨resource, found⟩ := Option.isSome_iff_exists.1 laid.lock
  simp [on, found]

theorem get?_score : (hand.on p st).exclusives.get? score = some ⟨lock, .rally hand.rally, hand.inUse⟩ := by
  obtain ⟨exclusive, found⟩ := Option.isSome_iff_exists.1 laid.score
  simp [on, found]

theorem get?_entry : (hand.on p st).frames.get? entry = some (playerSheet rounds p) := by
  have old : entry.number ≤ st.frames.size := ((st.frames.isSome_get?_iff entry).1 (by simp [laid.entry])).2
  obtain ⟨base, top, value, resumes, _ | letter, owner, rally, inUse⟩ := hand
  · exact laid.entry
  · have apart : entry ≠ ⟨st.frames.size + 2⟩ := fun same => by
      simp only [same] at old
      omega
    refine (get?_letter ..).trans ?_
    rw [if_neg apart, if_neg (Table.ne_next_of_get? laid.entry), laid.entry]

end

theorem get?_body : ((⟨base, top, value, resumes, some letter, owner, rally, inUse⟩ : Hand).on p st).frames.get?
    (nextBody st) = some letter.body := by
  simp only [on, withLetter, nextBody, get?_letter, if_neg (next_ne _), if_true]

theorem get?_guard : ((⟨base, top, value, resumes, some letter, owner, rally, inUse⟩ : Hand).on p st).frames.get?
    (nextGuard st) = some letter.guard := by
  simp only [on, withLetter, nextGuard, get?_letter, if_true]

/-! ## Changes of the hand -/

theorem modifyTask (hand : Hand) {f : Task Datum → Task Datum} (base : Task Datum) (top : FrameId) (value : Datum)
    (same : f hand.task = ({ hand with base := base, top := top, value := value } : Hand).task) :
    (hand.on p st).modifyTask p.task f = ({ hand with base := base, top := top, value := value } : Hand).on p st := by
  simp [on, State.modifyTask, Table.modify_modify, same]

theorem write (hand : Hand) (k : Nat) :
    ({ hand.on p st with cells := (hand.on p st).cells.modify p.cell fun _ => k } : State Datum Nat) =
      ({ hand with resumes := k } : Hand).on p st := by
  simp [on, task, Table.modify_modify]

theorem setOwner (hand : Hand) (owner : Option TaskId) :
    (hand.on p st).setOwner lock owner = ({ hand with owner := owner } : Hand).on p st := by
  simp [on, task, State.setOwner, State.modifyResource, Table.modify_modify]

theorem setPayload (hand : Hand) (rally : Rally) :
    (hand.on p st).modifyExclusive score (fun exclusive => { exclusive with payload := .rally rally }) =
      ({ hand with rally := rally } : Hand).on p st := by
  simp [on, task, State.modifyExclusive, Table.modify_modify]

theorem openPayload (hand : Hand) :
    (hand.on p st).openPayload score = ({ hand with inUse := true } : Hand).on p st := by
  simp [on, task, State.openPayload, State.modifyExclusive, Table.modify_modify]

theorem closePayload (hand : Hand) :
    (hand.on p st).closePayload score = ({ hand with inUse := false } : Hand).on p st := by
  simp [on, task, State.closePayload, State.modifyExclusive, Table.modify_modify]

theorem modifyBody (f : Sheet → Sheet) :
    ((⟨base, top, value, resumes, some letter, owner, rally, inUse⟩ : Hand).on p st).modifyFrame (nextBody st) f =
      (⟨base, top, value, resumes, some { letter with body := f letter.body }, owner, rally, inUse⟩ : Hand).on p st := by
  simp only [on, task, withLetter, State.modifyFrame, nextBody, modify_body]

theorem modifyGuard (f : Sheet → Sheet) :
    ((⟨base, top, value, resumes, some letter, owner, rally, inUse⟩ : Hand).on p st).modifyFrame (nextGuard st) f =
      (⟨base, top, value, resumes, some { letter with guard := f letter.guard }, owner, rally, inUse⟩ : Hand).on p st := by
  simp only [on, task, withLetter, State.modifyFrame, nextGuard, modify_guard]

end Hand

end Tasking.Scenario.Pingpong
