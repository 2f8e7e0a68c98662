import Mathlib.Algebra.Group.Nat.Defs
import Mathlib.Data.List.Induction
import Mathlib.Data.List.TakeWhile
import Tasking.Text.Blank
import Tasking.Text.Numeral

/-! # How numbers are written

A numeral is a row of digits in base ten, with an optional plus sign before it (`Numeral`).  Reading takes exactly the
numerals of numbers below `2^64` (`numeral?_eq_some_iff`).

A text may have white space around what it says; `Trims` says what is left without it.
-/

namespace Tasking.Text

/-- A row of digits that stands for a number in base ten. -/
inductive Digits : List Char → Nat → Prop where
  | digit {d : Char} (isDigit : d.isDigit = true) : Digits [d] (d.toNat - 48)
  | snoc {ds : List Char} {n : Nat} {d : Char} (row : Digits ds n) (isDigit : d.isDigit = true) :
      Digits (ds ++ [d]) (10 * n + (d.toNat - 48))

/-- A text that stands for a number: digits, perhaps behind one plus sign. -/
inductive Numeral : String → Nat → Prop where
  | plain {ds : List Char} {n : Nat} (row : Digits ds n) : Numeral (.ofList ds) n
  | signed {ds : List Char} {n : Nat} (row : Digits ds n) : Numeral (.ofList ('+' :: ds)) n

/-- What a text says without the white space at either end. -/
def Trims (text core : String) : Prop :=
  ∃ before after : List Char, text.toList = before ++ core.toList ++ after ∧
    (∀ c ∈ before ++ after, isBlank c = true) ∧
    (∀ c ∈ core.toList.head?, isBlank c = false) ∧ ∀ c ∈ core.toList.getLast?, isBlank c = false

theorem isAsciiDigit_eq (c : Char) : isAsciiDigit c = c.isDigit := rfl

theorem digitsValue_snoc (ds : List Char) (d : Char) :
    digitsValue (ds ++ [d]) = 10 * digitsValue ds + (d.toNat - 48) := by
  simp [digitsValue, digitValue]

theorem digits_iff {ds : List Char} {n : Nat} :
    Digits ds n ↔ ds ≠ [] ∧ (∀ d ∈ ds, d.isDigit = true) ∧ digitsValue ds = n := by
  constructor
  · intro row
    induction row with
    | digit isDigit => simp [isDigit, digitsValue, digitValue]
    | snoc _ isDigit inductionHypothesis =>
      obtain ⟨_, digits, rfl⟩ := inductionHypothesis
      refine ⟨by simp, fun c inside => ?_, digitsValue_snoc _ _⟩
      cases List.mem_append.1 inside with
      | inl old => exact digits c old
      | inr last => exact List.mem_singleton.1 last ▸ isDigit
  · rintro ⟨some, digits, rfl⟩
    induction ds using List.reverseRecOn with
    | nil => exact absurd rfl some
    | append_singleton ds d inductionHypothesis =>
      have isDigit := digits d (by simp)
      by_cases alone : ds = []
      · subst alone
        simpa [digitsValue, digitValue] using Digits.digit isDigit
      · rw [digitsValue_snoc]
        exact .snoc (inductionHypothesis alone fun c inside => digits c (by simp [inside])) isDigit

theorem dropPlus_of_digits {ds : List Char} (digits : ∀ d ∈ ds, d.isDigit = true) : dropPlus ds = ds := by
  unfold dropPlus
  split
  · next rest => exact absurd (digits '+' (by simp)) (by decide)
  · rfl

theorem numeral_iff {s : String} {n : Nat} : Numeral s n ↔ Digits (dropPlus s.toList) n := by
  constructor
  · intro numeral
    cases numeral with
    | plain row => rwa [String.toList_ofList, dropPlus_of_digits (digits_iff.1 row).2.1]
    | signed row => rwa [String.toList_ofList]
  · intro row
    rw [← s.ofList_toList]
    unfold dropPlus at row
    split at row
    · next rest here => exact here ▸ .signed row
    · exact .plain row

/-- What is read as a number. -/
theorem numeral?_eq_some_iff {s : String} {n : Nat} : numeral? s = some n ↔ Numeral s n ∧ n < 2 ^ 64 := by
  rw [numeral_iff, digits_iff, numeral?, numeralChars?, Option.ite_none_right_eq_some, Option.some.injEq]
  simp only [List.all_eq_true, isAsciiDigit_eq]
  constructor
  · rintro ⟨⟨some, digits, small⟩, rfl⟩
    exact ⟨⟨some, digits, rfl⟩, small⟩
  · rintro ⟨⟨some, digits, rfl⟩, small⟩
    exact ⟨⟨some, digits, small⟩, rfl⟩

theorem numeral?_eq_none_iff {s : String} : numeral? s = none ↔ ¬∃ n < 2 ^ 64, Numeral s n := by
  rw [Option.eq_none_iff_forall_ne_some]
  simp only [ne_eq, numeral?_eq_some_iff, not_exists, not_and]
  exact forall_congr' fun n => ⟨fun no small numeral => no numeral small, fun no numeral small => no small numeral⟩

/-! ## White space -/

/-- A list falls into the white space at its start and the rest. -/
theorem exists_blank_append (cs : List Char) :
    ∃ before, cs = before ++ dropBlank cs ∧ (∀ c ∈ before, isBlank c = true) ∧
      ∀ c ∈ (dropBlank cs).head?, isBlank c = false := by
  refine ⟨cs.takeWhile isBlank, List.takeWhile_append_dropWhile.symm, fun c => List.mem_takeWhile_imp, fun c first => ?_⟩
  have stops := List.head?_dropWhile_not isBlank cs
  rw [dropBlank] at first
  rwa [Option.mem_def.1 first] at stops

theorem dropBlank_eq {before rest : List Char} (blank : ∀ c ∈ before, isBlank c = true)
    (stops : ∀ c ∈ rest.head?, isBlank c = false) : dropBlank (before ++ rest) = rest := by
  rw [dropBlank, List.dropWhile_append_of_pos blank]
  cases rest with
  | nil => rfl
  | cons c rest => exact List.dropWhile_cons_of_neg (by simp [stops c rfl])

theorem trim_eq_iff {text core : String} : trim text = core ↔ Trims text core := by
  constructor
  · rintro rfl
    obtain ⟨before, front, blank, starts⟩ := exists_blank_append text.toList
    obtain ⟨after, back, blank', ends⟩ := exists_blank_append (dropBlank text.toList).reverse
    have middle : dropBlank text.toList = (trim text).toList ++ after.reverse := by
      rw [trim, String.toList_ofList, trimChars, ← List.reverse_append, ← back, List.reverse_reverse]
    refine ⟨before, after.reverse, ?_, ?_, fun c first => starts c ?_, fun c last => ends c ?_⟩
    · rw [List.append_assoc, ← middle, ← front]
    · intro c inside
      rcases List.mem_append.1 inside with front | back
      · exact blank c front
      · exact blank' c (List.mem_reverse.1 back)
    · rw [middle, Option.mem_def, List.head?_append, Option.mem_def.1 first]
      rfl
    · rwa [trim, String.toList_ofList, trimChars, List.getLast?_reverse] at last
  · rintro ⟨before, after, parts, blank, starts, ends⟩
    have front : ∀ c ∈ before, isBlank c = true := fun c inside => blank c (List.mem_append_left _ inside)
    have back : ∀ c ∈ after, isBlank c = true := fun c inside => blank c (List.mem_append_right _ inside)
    rw [← String.toList_inj, trim, String.toList_ofList, trimChars, parts, List.append_assoc]
    by_cases nothing : core.toList = []
    · have gone : dropBlank (before ++ after) = [] := List.dropWhile_eq_nil_iff.2 blank
      rw [nothing, List.nil_append, gone]
      rfl
    · rw [dropBlank_eq front, List.reverse_append, dropBlank_eq, List.reverse_reverse]
      · exact fun c inside => back c (List.mem_reverse.1 inside)
      · rwa [List.head?_reverse]
      · obtain ⟨c, rest, line⟩ := List.exists_cons_of_ne_nil nothing
        rw [line] at starts ⊢
        exact starts

end Tasking.Text
