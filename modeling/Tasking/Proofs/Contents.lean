import Mathlib.Data.ZMod.Basic
import Tasking.Word

/-! # What a register holds

From the bits of a register nothing can be told but this: whether it holds null, another address, or an integer modulo
`2^63` (`Content`).  Integers that agree modulo `2^63` are the same to it, and it shows all of them as the one between
`-2^62` and `2^62 - 1` (`Content.representative`).

Whatever is done with a register, the replies are those of a plain variable for contents
(`Register.replies_of_contents`).
-/

namespace Tasking

/-- What a register can hold. -/
inductive Content where
  | null
  | address (a : Address) (somewhere : a.bits ≠ 0)
  | integer (n : ZMod (2 ^ 63))
  deriving DecidableEq

/-- What a word stands for. -/
def Word.content : Word → Content
  | .pointer a => if somewhere : a.bits = 0 then .null else .address a somewhere
  | .int i => .integer i.toInt

namespace Content

/-- The number between `-2^62` and `2^62 - 1` that stands for an integer modulo `2^63`. -/
def representative (n : ZMod (2 ^ 63)) : Int64 := .ofInt (Int.bmod n.val (2 ^ 63))

/-- The word that is shown for a content. -/
def word : Content → Word
  | null => .null
  | address a _ => .pointer a
  | integer n => .int (representative n)

/-- The bits that stand for a content. -/
def bits : Content → UInt64
  | null => 0
  | address a _ => a.bits
  | integer n => .ofNat (2 * n.val + 1)

end Content

/-! ## Bits and contents -/

theorem toInt_shiftRight_one (i : Int64) : (i >>> 1).toInt = i.toInt / 2 := by
  have shifted : (i >>> 1).toInt = (i.toBitVec.sshiftRight 1).toInt := rfl
  rw [shifted, BitVec.toInt_sshiftRight, Int.shiftRight_eq_div_pow]
  rfl

theorem toNat_shiftLeft_one (i : Int64) : (i <<< 1).toUInt64.toNat = 2 * i.toUInt64.toNat % 2 ^ 64 := by
  have shifted : (i <<< 1).toUInt64.toNat = (i.toBitVec <<< 1).toNat := rfl
  rw [shifted, BitVec.toNat_shiftLeft, Nat.shiftLeft_eq, Nat.mul_comm]
  rfl

theorem toNat_or_one {b : UInt64} (even : b.toNat % 2 = 0) : (b ||| 1).toNat = b.toNat + 1 := by
  have tagged := Nat.two_pow_add_eq_or_of_lt (i := 1) (b := 1) (by omega) (b.toNat / 2)
  have halves : 2 ^ 1 * (b.toNat / 2) = b.toNat := by omega
  rw [halves] at tagged
  rw [UInt64.toNat_or, UInt64.toNat_one, tagged]

theorem and_one_eq_zero_iff {b : UInt64} : b &&& 1 = 0 ↔ b.toNat % 2 = 0 := by
  rw [← UInt64.toNat_inj]
  simp

/-- A signed and an unsigned reading of the same bits agree modulo `2^63`. -/
theorem toInt_emod (i : Int64) : i.toInt % 2 ^ 63 = i.toUInt64.toNat % 2 ^ 63 := by
  have signed : i.toInt = Int.bmod i.toUInt64.toNat (2 ^ 64) := BitVec.toInt_eq_toNat_bmod i.toBitVec
  rw [Int.bmod_def] at signed
  omega

theorem val_toInt (i : Int64) : (i.toInt : ZMod (2 ^ 63)).val = i.toUInt64.toNat % 2 ^ 63 := by
  have residue := ZMod.val_intCast (n := 2 ^ 63) i.toInt
  have same := toInt_emod i
  omega

namespace Content

theorem toNat_bits_integer (n : ZMod (2 ^ 63)) : (integer n).bits.toNat = 2 * n.val + 1 := by
  have small := n.val_lt
  rw [bits, UInt64.toNat_ofNat', Nat.mod_eq_of_lt]
  omega

theorem toInt_representative (n : ZMod (2 ^ 63)) : (representative n).toInt = Int.bmod n.val (2 ^ 63) := by
  have least := Int.le_bmod (x := n.val) (m := 2 ^ 63) (by omega)
  have most := Int.bmod_lt (x := n.val) (m := 2 ^ 63) (by omega)
  exact Int64.toInt_ofInt_of_le (by omega) (by omega)

/-- An integer stands for itself modulo `2^63`. -/
theorem integer_representative (n : ZMod (2 ^ 63)) : ((representative n).toInt : ZMod (2 ^ 63)) = n := by
  have same : ((representative n).toInt : ZMod (2 ^ 63)) = (n.val : Int) := by
    rw [toInt_representative, ZMod.intCast_eq_intCast_iff']
    exact Int.bmod_emod
  rw [same, Int.cast_natCast, ZMod.natCast_zmod_val]

/-- The integers that are shown as they are. -/
theorem representative_eq_iff {i : Int64} {n : ZMod (2 ^ 63)} :
    representative n = i ↔ n = i.toInt ∧ -2 ^ 62 ≤ i.toInt ∧ i.toInt < 2 ^ 62 := by
  have residue : n = i.toInt ↔ ((2 ^ 63 : Nat) : Int) ∣ i.toInt - n.val := by
    rw [← ZMod.intCast_eq_intCast_iff_dvd_sub, Int.cast_natCast, ZMod.natCast_zmod_val]
  rw [← Int64.toInt_inj, toInt_representative, Int.bmod_eq_iff (by omega), residue]
  omega

theorem content_word (c : Content) : c.word.content = c := by
  cases c with
  | null => rfl
  | address a somewhere => exact dif_neg somewhere
  | integer n => exact congrArg integer (integer_representative n)

end Content

namespace Word

theorem bits_content (w : Word) : w.content.bits = w.encode := by
  cases w with
  | pointer a =>
    rw [content, encode]
    split
    · next nowhere => exact nowhere.symm
    · rfl
  | int i =>
    have shifted := toNat_shiftLeft_one i
    have tagged := toNat_or_one (b := (i <<< 1).toUInt64) (by omega)
    rw [← UInt64.toNat_inj, content, Content.toNat_bits_integer, encode, tagged, shifted, val_toInt]
    omega

theorem decode_bits (c : Content) : decode c.bits = c.word := by
  cases c with
  | null => rfl
  | address a somewhere => exact dif_pos a.even
  | integer n =>
    have bits := Content.toNat_bits_integer n
    have odd : ¬ (Content.integer n).bits &&& 1 = 0 := by
      rw [and_one_eq_zero_iff]
      omega
    rw [decode, dif_neg odd, Content.word, int.injEq, ← Int64.toInt_inj, toInt_shiftRight_one,
      Content.toInt_representative]
    have small := n.val_lt
    have signed : (Content.integer n).bits.toInt64.toInt = Int.bmod (2 * n.val + 1 : Nat) (2 ^ 64) := by
      rw [← bits]
      exact BitVec.toInt_eq_toNat_bmod (Content.integer n).bits.toBitVec
    rw [signed, Int.bmod_def, Int.bmod_def]
    omega

end Word

/-! ## Operations -/

namespace Register

/-- What can be done with a register. -/
inductive Operation where
  | load
  | store (w : Word)
  | swap (w : Word)
  | compareAndSwap (expected replacement : Word)
  | fetchAdd (amount : Int64)

inductive Reply where
  | done
  | word (w : Word)
  | integer (i : Int64)
  deriving DecidableEq

/-- The reply to an operation, and the register after it. -/
def perform (r : Register) : Operation → Except Fault (Reply × Register)
  | .load => .ok (.word r.load, r)
  | .store w => .ok (.done, r.store w)
  | .swap w =>
    let (before, r) := r.swap w
    .ok (.word before, r)
  | .compareAndSwap expected replacement =>
    let (before, r) := r.compareAndSwap expected replacement
    .ok (.word before, r)
  | .fetchAdd amount => do
    let (before, r) ← r.fetchAdd amount
    return (.integer before, r)

/-- The replies to some operations, one after another, and the register after them. -/
def performAll (r : Register) : List Operation → Except Fault (List Reply × Register)
  | [] => .ok ([], r)
  | operation :: rest => do
    let (reply, r) ← r.perform operation
    let (replies, r) ← r.performAll rest
    return (reply :: replies, r)

end Register

namespace Content

/-- What a variable replies that holds a content, and what it holds after the operation.  A replacement is installed if the
word that is expected stands for what the variable holds. -/
def perform (c : Content) : Register.Operation → Except Fault (Register.Reply × Content)
  | .load => .ok (.word c.word, c)
  | .store w => .ok (.done, w.content)
  | .swap w => .ok (.word c.word, w.content)
  | .compareAndSwap expected replacement =>
    .ok (.word c.word, if c = expected.content then replacement.content else c)
  | .fetchAdd amount =>
    match c with
    | integer n => .ok (.integer (representative n), integer (n + amount.toInt))
    | null | address _ _ => .error .addToPointer

/-- The replies to some operations, one after another, and what the variable holds after them. -/
def performAll (c : Content) : List Register.Operation → Except Fault (List Register.Reply × Content)
  | [] => .ok ([], c)
  | operation :: rest => do
    let (reply, c) ← c.perform operation
    let (replies, c) ← c.performAll rest
    return (reply :: replies, c)

/-- The register that holds a content. -/
def register (c : Content) : Register := ⟨c.bits⟩

theorem load_register (c : Content) : c.register.load = c.word := Word.decode_bits c

theorem register_eq_iff {c c' : Content} : c.register = c'.register ↔ c = c' := by
  constructor
  · intro same
    have words : c.word = c'.word := by rw [← load_register, same, load_register]
    rw [← content_word c, words, content_word]
  · exact congrArg register

end Content

namespace Register

theorem ofWord_eq (w : Word) : ofWord w = w.content.register := by
  rw [ofWord, Content.register, Word.bits_content]

theorem compareAndSwap_register (c : Content) (expected replacement : Word) :
    c.register.compareAndSwap expected replacement =
      (c.word, (if c = expected.content then replacement.content else c).register) := by
  have agrees : c.register.bits = expected.encode ↔ c = expected.content := by
    rw [← Word.bits_content, ← Content.register_eq_iff, Content.register, Content.register, mk.injEq]
  rw [compareAndSwap, Content.load_register, apply_ite Content.register, ← ofWord_eq]
  simp only [agrees, store, ofWord]

/-- The amount that is added to the bits leaves their tag as it is. -/
theorem fetchAdd_register (n : ZMod (2 ^ 63)) (amount : Int64) :
    (Content.integer n).register.fetchAdd amount =
      .ok (Content.representative n, (Content.integer (n + amount.toInt)).register) := by
  have added : (Content.integer n).bits + (amount <<< 1).toUInt64 = (Content.integer (n + amount.toInt)).bits := by
    rw [← UInt64.toNat_inj, UInt64.toNat_add, Content.toNat_bits_integer, Content.toNat_bits_integer,
      toNat_shiftLeft_one, ZMod.val_add, val_toInt]
    have small := n.val_lt
    omega
  rw [fetchAdd, Content.load_register, Content.word]
  exact congrArg (fun bits => Except.ok (Content.representative n, Register.mk bits)) added

theorem perform_register (c : Content) (operation : Operation) :
    c.register.perform operation = (c.perform operation).map fun (reply, c) => (reply, c.register) := by
  cases operation with
  | load => rw [perform, Content.load_register]; rfl
  | store w => exact congrArg (fun r => Except.ok (Reply.done, r)) (ofWord_eq w)
  | swap w =>
    rw [perform, swap, Content.load_register]
    exact congrArg (fun r => Except.ok (Reply.word c.word, r)) (ofWord_eq w)
  | compareAndSwap expected replacement => rw [perform, compareAndSwap_register]; rfl
  | fetchAdd amount =>
    cases c with
    | integer n => rw [perform, fetchAdd_register]; rfl
    | null => rfl
    | address a somewhere => rw [perform, fetchAdd, Content.load_register]; rfl

theorem performAll_register (c : Content) (operations : List Operation) :
    c.register.performAll operations =
      (c.performAll operations).map fun (replies, c) => (replies, c.register) := by
  induction operations generalizing c with
  | nil => rfl
  | cons operation rest inductionHypothesis =>
    rw [performAll, Content.performAll, perform_register]
    cases c.perform operation with
    | error fault => rfl
    | ok replied =>
      obtain ⟨reply, c⟩ := replied
      have later := inductionHypothesis c
      cases left : c.performAll rest with
      | error fault => simp [bind, Except.bind, Except.map, later, left]
      | ok replied => simp [bind, Except.bind, Except.map, later, left, pure, Except.pure]

/-- Whatever is done with a register, the replies are those of a variable for contents, and so is what the register holds
afterwards.  What it shows for a content stands for that content: null, an address and an integer are never taken for one
another, and an integer modulo `2^63` is shown as its representative between `-2^62` and `2^62 - 1`.  So the reply of
`compareAndSwap` is the integer that was expected exactly if that integer is one of those and the replacement was
installed. -/
theorem replies_of_contents :
    (∀ (w : Word) (operations : List Operation), (ofWord w).performAll operations =
      (w.content.performAll operations).map fun (replies, c) => (replies, ofWord c.word)) ∧
    (∀ c : Content, (ofWord c.word).load = c.word ∧ c.word.content = c ∧
      (c.word.isNull = true ↔ c = .null) ∧
      (∀ a, c.word.address? = some a ↔ ∃ somewhere, c = .address a somewhere) ∧
      ∀ i, c.word.int? = some i ↔ ∃ n, c = .integer n ∧ i = Content.representative n) ∧
    (∀ n, -2 ^ 62 ≤ (Content.representative n).toInt ∧ (Content.representative n).toInt < 2 ^ 62 ∧
      (Content.representative n).toInt = n) ∧
    ∀ (c : Content) (i : Int64),
      c.word = .int i ↔ c = (Word.int i).content ∧ -2 ^ 62 ≤ i.toInt ∧ i.toInt < 2 ^ 62 := by
  refine ⟨fun w operations => ?_, fun c => ⟨?_, Content.content_word c, ?_⟩, fun n => ?_, fun c i => ?_⟩
  · rw [ofWord_eq, performAll_register]
    simp only [ofWord_eq, Content.content_word]
  · rw [ofWord_eq, Content.content_word, Content.load_register]
  · cases c with
    | null => simp [Content.word, Word.null, Word.isNull, Word.address?, Word.int?]
    | address a somewhere => simp [Content.word, Word.isNull, Word.address?, Word.int?, somewhere]
    | integer n => simp [Content.word, Word.isNull, Word.address?, Word.int?, eq_comm]
  · obtain ⟨_, least, most⟩ := Content.representative_eq_iff.1 (rfl : Content.representative n = _)
    exact ⟨least, most, Content.integer_representative n⟩
  · cases c with
    | null => simp [Content.word, Word.null, Word.content]
    | address a somewhere => simp [Content.word, Word.content]
    | integer n => simp [Content.word, Word.content, Content.representative_eq_iff]

example : (Word.int 0x4000000000000000).content.word = .int (-0x4000000000000000) := by decide +kernel

end Register

end Tasking
