import Mathlib.Order.Monotone.Basic
import Tasking.Proofs.Apart.Steps

/-! # Two groups

A `Division` says of every thing whether it is ours, theirs or shared.  Without the others' things, the numbers
of ours would be lower: `Division.rank` says what they would be.  That gives two likenesses.  One compares a run
with a run of our group alone (`Division.ours`): what stands for a thing of ours is the thing whose number is the
rank of its number.  The other compares a run with itself, as far as the others can see (`Division.theirs`).

What one group does keeps what the other group sees (`Division.ours_of_theirs`, `Division.theirs_of_ours`).
-/

namespace Tasking

variable {V C : Type}

/-- Whose a thing is. -/
inductive Party where
  | ours | theirs | shared
  deriving DecidableEq

/-- Whose everything is.  Nothing but schedulers and registries may be shared. -/
structure Division where
  party : Kind → Nat → Party
  shares : ∀ {kind : Kind} {n : Nat}, party kind n = .shared → kind = .scheduler ∨ kind = .registry

/-- The values and the contents of cells that stand for one another in two runs. -/
structure Matching (V C : Type) [Inhabited V] where
  value : V → V → Prop
  content : C → C → Prop
  default : value default default

namespace Division

/-- The number that a thing would have without the others' things. -/
def rank (d : Division) (kind : Kind) : Nat → Nat
  | 0 => 0
  | n + 1 => if d.party kind (n + 1) = .theirs then rank d kind n else rank d kind n + 1

variable (d : Division)

/-- Whether a task is not the others'. -/
def isOurs (t : TaskId) : Bool := d.party .task t.number ≠ .theirs

theorem rank_le_succ (kind : Kind) (n : Nat) : d.rank kind n ≤ d.rank kind (n + 1) := by
  rw [rank]
  split
  · exact Nat.le_refl _
  · exact Nat.le_succ _

theorem rank_mono (kind : Kind) : Monotone (d.rank kind) := monotone_nat_of_le_succ (d.rank_le_succ kind)

theorem rank_le (kind : Kind) (n : Nat) : d.rank kind n ≤ n := by
  induction n with
  | zero => exact Nat.le_refl 0
  | succ n inductionHypothesis =>
    rw [rank]
    split
    · exact Nat.le_succ_of_le inductionHypothesis
    · exact Nat.succ_le_succ inductionHypothesis

/-- Ranks are in the order of the numbers. -/
theorem rank_lt {kind : Kind} {m n : Nat} (own : d.party kind n ≠ .theirs) (less : m < n) :
    d.rank kind m < d.rank kind n := by
  cases n with
  | zero => exact absurd less (Nat.not_lt_zero m)
  | succ n =>
    rw [rank, if_neg own]
    exact Nat.lt_succ_of_le (d.rank_mono kind (Nat.le_of_lt_succ less))

theorem rank_inj {kind : Kind} {m n : Nat} (own : d.party kind m ≠ .theirs) (own' : d.party kind n ≠ .theirs)
    (same : d.rank kind m = d.rank kind n) : m = n := by
  cases Nat.lt_trichotomy m n with
  | inl less => exact absurd same (Nat.ne_of_lt (d.rank_lt own' less))
  | inr rest =>
    cases rest with
    | inl equal => exact equal
    | inr more => exact absurd same.symm (Nat.ne_of_lt (d.rank_lt own more))

/-- The others' things do not count. -/
theorem rank_of_theirs {kind : Kind} {m n : Nat} (least : m ≤ n)
    (theirs : ∀ i, m < i → i ≤ n → d.party kind i = .theirs) : d.rank kind n = d.rank kind m := by
  induction n, least using Nat.le_induction with
  | base => rfl
  | succ n least inductionHypothesis =>
    rw [rank, if_pos (theirs _ (Nat.lt_succ_of_le least) (Nat.le_refl _))]
    exact inductionHypothesis fun i more less => theirs i more (Nat.le_succ_of_le less)

theorem rank_of_none {kind : Kind} {n : Nat} (own : ∀ i, 0 < i → i ≤ n → d.party kind i ≠ .theirs) :
    d.rank kind n = n := by
  induction n with
  | zero => rfl
  | succ n inductionHypothesis =>
    rw [rank, if_neg (own _ (Nat.succ_pos n) (Nat.le_refl _)),
      inductionHypothesis fun i more less => own i more (Nat.le_succ_of_le less)]

variable [Inhabited V]

/-- A run beside a run of our group alone. -/
def ours (m : Matching V C) : Likeness V C where
  holds kind n := d.party kind n = .ours
  id {kind} i i' := d.party kind i.number ≠ .theirs ∧ i'.number = d.rank kind i.number
  value := m.value
  content := m.content
  queue l l' := List.Forall₂ (fun t t' => d.party .task t.number ≠ .theirs ∧ t'.number = d.rank .task t.number)
    (l.filter d.isOurs) l'
  level kind n n' := n' = d.rank kind n
  same_iff := by
    rintro kind ⟨i⟩ ⟨i'⟩ ⟨j⟩ ⟨j'⟩ ⟨own, rfl⟩ ⟨own', rfl⟩
    simp only [Id.mk.injEq]
    exact ⟨congrArg _, d.rank_inj own own'⟩
  held := by
    rintro kind i i' ⟨own, _⟩ scheduler registry
    cases party : d.party kind i.number with
    | ours => rfl
    | theirs => exact absurd party own
    | shared =>
      cases d.shares party with
      | inl equal => exact absurd equal scheduler
      | inr equal => exact absurd equal registry
  default := m.default
  push := by
    rintro l l' t t' alike ⟨own, same⟩
    have counted : d.isOurs t = true := by simpa [isOurs] using own
    rw [List.filter_append, List.filter_singleton, counted, cond_true]
    exact List.rel_append alike (.cons ⟨own, same⟩ .nil)
  level_le := by
    rintro kind n _ rfl
    exact d.rank_le kind n
  grows := by
    rintro kind n _ rfl mine
    have own : d.party kind (n + 1) ≠ .theirs := by simp [mine]
    have next : d.rank kind (n + 1) = d.rank kind n + 1 := by rw [rank, if_neg own]
    exact ⟨⟨own, next.symm⟩, next.symm⟩

/-- A run beside itself, as the others see it. -/
def theirs (m : Matching V C) : Likeness V C where
  holds kind n := d.party kind n = .theirs
  id {kind} i i' := d.party kind i.number ≠ .ours ∧ i' = i
  value := m.value
  content := m.content
  queue _ _ := True
  level _ n n' := n' = n
  same_iff := by
    rintro kind i i' j j' ⟨_, rfl⟩ ⟨_, rfl⟩
    exact Iff.rfl
  held := by
    rintro kind i i' ⟨foreign, _⟩ scheduler registry
    cases party : d.party kind i.number with
    | ours => exact absurd party foreign
    | theirs => rfl
    | shared =>
      cases d.shares party with
      | inl equal => exact absurd equal scheduler
      | inr equal => exact absurd equal registry
  default := m.default
  push _ _ := trivial
  level_le := by
    rintro kind n _ rfl
    exact Nat.le_refl _
  grows := by
    rintro kind n _ rfl mine
    exact ⟨⟨by simp [mine], rfl⟩, rfl⟩

variable {d} {m k : Matching V C} {st st' st₁ st₁' : State V C}

/-- What the others do leaves our things alone. -/
theorem ours_of_theirs (mirrors : (d.ours m).Mirrors st st') (moves : (d.theirs k).Moves st st st₁ st₁)
    (fresh : (d.theirs k).Fresh st st₁) : (d.ours m).Mirrors st₁ st' := by
  refine mirrors.transfer moves.avoids (.refl st' : st'.Avoids (fun _ _ => True) st') (fun same => ⟨same.1, trivial⟩) ?_ ?_
  · intro l l' new new' alike foreign none'
    have nothing : new' = [] := List.eq_nil_iff_forall_not_mem.2 fun t member => none' t member trivial
    have skipped : new.filter d.isOurs = [] := by
      refine List.filter_eq_nil_iff.2 fun t member => ?_
      have theirs : d.party .task t.number = .theirs := not_not.1 (foreign t member)
      simp [isOurs, theirs]
    rw [nothing, List.append_nil]
    change List.Forall₂ _ ((l ++ new).filter d.isOurs) l'
    rw [List.filter_append, skipped, List.append_nil]
    exact alike
  · intro kind
    have level := mirrors.level kind
    change st'.size kind = d.rank kind (st₁.size kind)
    rw [d.rank_of_theirs (moves.avoids.size kind) (fresh kind)]
    exact level

/-- What we do leaves the others' things alone. -/
theorem theirs_of_ours (mirrors : (d.theirs k).Mirrors st st) (moves : (d.ours m).Moves st st' st₁ st₁') :
    (d.theirs k).Mirrors st₁ st₁ := by
  refine mirrors.transfer moves.avoids moves.avoids (fun {kind i i'} same => ?_) ?_ fun kind => rfl
  · obtain ⟨foreign, rfl⟩ := same
    exact ⟨foreign, foreign⟩
  · exact fun _ _ _ _ _ _ _ => trivial

end Division

end Tasking
