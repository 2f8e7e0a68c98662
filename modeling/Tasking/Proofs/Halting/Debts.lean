import Mathlib.Data.Multiset.DershowitzManna
import Mathlib.SetTheory.Ordinal.Family
import Tasking.Proofs.Crew

/-! # What is left to be done by code

A program answers after finitely many steps, but nobody can say how many: what it does next depends on
replies.  Its height is an ordinal that gets less with each step (`Program.height`).  What a thread still owes is
the multiset of the heights of all that waits for an answer (`Config.debt`), and only what certain frames have
to pay is counted.  Paying a debt by smaller ones makes the multiset less, and this order is well-founded: debts
that are only ever paid are paid up to some point and then stay as they are (`settles`).
-/

namespace Tasking

variable {V C : Type}

/-- A sequence that moves only downwards in a well-founded order comes to rest. -/
theorem settles {α : Type*} {r : α → α → Prop} (wf : WellFounded r) (m : Nat → α) {start : Nat}
    (down : ∀ n ≥ start, m (n + 1) = m n ∨ r (m (n + 1)) (m n)) : ∃ rest ≥ start, ∀ n ≥ rest, m n = m rest := by
  obtain ⟨_, ⟨rest, late, rfl⟩, least⟩ := wf.has_min {a | ∃ n ≥ start, a = m n} ⟨m start, start, le_rfl, rfl⟩
  refine ⟨rest, late, fun n later => ?_⟩
  induction n, later using Nat.le_induction with
  | base => rfl
  | succ n later inductionHypothesis =>
    rcases down n (le_trans late later) with same | less
    · exact same.trans inductionHypothesis
    · exact absurd (inductionHypothesis ▸ less) (least _ ⟨n + 1, by omega, rfl⟩)

/-- How long a program can go on at most. -/
noncomputable def Program.height : Program V C → Ordinal.{0}
  | .answer _ => 0
  | .ask _ next => ⨆ reply, (next reply).height + 1
  | .newFrame _ _ next => ⨆ f, (next f).height + 1
  | .newActor _ _ next => ⨆ a, (next a).height + 1
  | .register _ _ _ next => ⨆ reply, (next reply).height + 1
  | .callNative _ _ _ _ next => ⨆ reply, (next reply).height + 1
  | .unwind _ _ _ next => next.height + 1 + 1
  | .drive _ next => (⨆ n, (next n).height + 1) + 1
  | .within _ _ inside next => max inside.height (⨆ reply, (next reply).height + 1) + 1
  | .await _ _ next => next.height + 1

/-- A program that has not answered yet owes its height. -/
noncomputable def Program.debt : Program V C → Multiset Ordinal.{0}
  | .answer _ => 0
  | p => {p.height}

/-- What is owed where a thread will go on later. -/
noncomputable def Focus.later : Focus V C → Multiset Ordinal.{0}
  | .code p => {p.height + 1}
  | .trampoline _ after => after.later
  | .drain _ _ next => {⨆ n, (next n).height + 1}
  | _ => 0

/-- What is owed where a thread is. -/
noncomputable def Focus.debt : Focus V C → Multiset Ordinal.{0}
  | .code p => p.debt
  | focus => focus.later

/-- A debt counts if the frame that has to pay it is one of certain frames. -/
def charge (among : FrameId → Bool) (payers : List FrameId) (debt : Multiset Ordinal.{0}) :
    Multiset Ordinal.{0} :=
  if payers.head?.any among then debt else 0

/-- What is owed by whatever waits for an answer.  The payers are the frames that run, innermost first. -/
noncomputable def Activation.debts (among : FrameId → Bool) : List (Activation V C) → List FrameId → Multiset Ordinal.{0}
  | _, [] => 0
  | [], _ => 0
  | .call next :: stack, f :: payers =>
    charge among (f :: payers) {⨆ a, (next a).height + 1} + debts among stack (f :: payers)
  | .opened _ :: stack, f :: payers => debts among stack (f :: payers)
  | .frame _ _ after :: stack, _ :: payers | .cancel _ _ _ _ after :: stack, _ :: payers =>
    charge among payers after.later + debts among stack payers

/-- What the frames that run on a thread still owe. -/
noncomputable def Config.debt (among : FrameId → Bool) (c : Config V C) (payers : List FrameId) :
    Multiset Ordinal.{0} :=
  charge among payers c.focus.debt + Activation.debts among c.stack payers

/-! ## Paying debts -/

/-- The first debts are the others, or less. -/
def Paid (owed owed' : Multiset Ordinal.{0}) : Prop := owed' = owed ∨ owed'.IsDershowitzMannaLT owed

theorem lt_of_replace {small rest : Multiset Ordinal.{0}} {a : Ordinal.{0}} (less : ∀ b ∈ small, b < a) :
    (small + rest).IsDershowitzMannaLT ({a} + rest) :=
  ⟨rest, small, {a}, by simp, add_comm .., add_comm .., fun b member => ⟨a, by simp, less b member⟩⟩

section

variable {among : FrameId → Bool} {payers : List FrameId} {debt small rest : Multiset Ordinal.{0}} {a : Ordinal.{0}}

/-- A debt is replaced by smaller ones. -/
theorem paid_of_replace (less : ∀ b ∈ small, b < a) :
    Paid (charge among payers {a} + rest) (charge among payers small + rest) ∧
      (payers.head?.any among = true →
        (charge among payers small + rest).IsDershowitzMannaLT (charge among payers {a} + rest)) := by
  by_cases pays : payers.head?.any among = true
  · simp only [charge, if_pos pays]
    exact ⟨.inr (lt_of_replace less), fun _ => lt_of_replace less⟩
  · simp only [charge, if_neg pays]
    exact ⟨.inl rfl, fun pays' => absurd pays' pays⟩

@[simp] theorem charge_zero : charge among payers 0 = 0 := by simp [charge]

theorem charge_add : charge among payers (small + debt) = charge among payers small + charge among payers debt := by
  unfold charge
  split
  · rfl
  · rw [add_zero]

@[simp] theorem debts_opened (opened : Option ExclusiveId) (stack : List (Activation V C)) (f : FrameId) :
    Activation.debts among ((opened.map Activation.opened).toList ++ stack) (f :: payers) =
      Activation.debts among stack (f :: payers) := by
  cases opened <;> simp [Activation.debts]

end

namespace Program

variable {p : Program V C}

@[simp] theorem debt_answer (a : Answer V) : (.answer a : Program V C).debt = 0 := rfl

theorem lt_of_mem_debt {a : Ordinal.{0}} (less : p.height < a) : ∀ b ∈ p.debt, b < a := by
  cases p <;> simp_all [Program.debt]

theorem debt_eq (busy : ∀ a, p ≠ .answer a) : p.debt = {p.height} := by
  cases p with
  | answer a => exact absurd rfl (busy a)
  | _ => rfl

theorem height_lt_iSup {ι : Type} (next : ι → Program V C) (i : ι) :
    (next i).height < ⨆ i, (next i).height + 1 :=
  Ordinal.lt_iSup_add_one (fun i => (next i).height) i

end Program

end Tasking
