import HexConsole.Text.Hexadecimal
import Mathlib.Algebra.Group.Int.Defs
import Mathlib.Algebra.Group.Nat.Defs
import Mathlib.Tactic.Common

/-!
# Reading hexadecimal back

A padded number is read back from its characters: blanks, zeros and a sign in front of the digits
add nothing to the value, and only a negative number has a sign. Main statement: whatever the width,
two numbers with the same padded form are equal, and a number that fits its column fills it.
-/
namespace HexConsole

namespace Hexadecimal

/-- What a character adds to a value. Blanks and signs add nothing. -/
def digitValue (c : Char) : Nat := if c.toNat < 58 then c.toNat - 48 else c.toNat - 55

/-- The value of digits, most significant first. -/
def magnitude (cs : List Char) : Nat := cs.foldl (fun n c => 16 * n + digitValue c) 0

/-- The value of a padded number. -/
def value (cs : List Char) : Int := if cs.contains '-' then -(magnitude cs : Int) else magnitude cs

theorem digitValue_digit {d : Nat} (small : d < 16) : digitValue (digit d) = d := by
  revert d
  decide

theorem digit_ne_sign {d : Nat} (small : d < 16) : digit d ≠ '-' := by
  revert d
  decide

theorem mem_digits {n : Nat} {c : Char} (member : c ∈ digits n) : ∃ d < 16, c = digit d := by
  induction n using digits.induct with
  | case1 n small =>
    rw [digits, if_pos small, List.mem_singleton] at member
    exact ⟨n, small, member⟩
  | case2 n large ih =>
    rw [digits, if_neg large, List.mem_append, List.mem_singleton] at member
    obtain front | last := member
    · exact ih front
    · exact ⟨n % 16, by omega, last⟩

theorem magnitude_digits (n : Nat) : magnitude (digits n) = n := by
  induction n using digits.induct with
  | case1 n small =>
    rw [digits, if_pos small]
    simp [magnitude, digitValue_digit small]
  | case2 n large ih =>
    have last : n % 16 < 16 := by omega
    rw [digits, if_neg large, magnitude, List.foldl_append, ← magnitude, ih]
    simp only [List.foldl_cons, List.foldl_nil, digitValue_digit last]
    omega

theorem magnitude_append {front : List Char} (padding : ∀ c ∈ front, digitValue c = 0)
    (cs : List Char) : magnitude (front ++ cs) = magnitude cs := by
  induction front with
  | nil => rfl
  | cons c front ih =>
    obtain ⟨first, others⟩ := List.forall_mem_cons.mp padding
    rw [List.cons_append, magnitude, List.foldl_cons, first]
    exact ih others

/-- Padding changes no value, as long as it holds a sign for the negative numbers only. -/
theorem value_padded {n : Int} {front : List Char} (padding : ∀ c ∈ front, digitValue c = 0)
    (signed : '-' ∈ front ↔ n < 0) : value (front ++ digits n.natAbs) = n := by
  have unsigned : '-' ∉ digits n.natAbs := by
    intro member
    obtain ⟨d, small, same⟩ := mem_digits member
    exact digit_ne_sign small same.symm
  have sign : (front ++ digits n.natAbs).contains '-' = decide (n < 0) := by
    simp [unsigned, signed]
  rw [value, sign, magnitude_append padding, magnitude_digits]
  by_cases negative : n < 0
  · simp only [negative, decide_true, if_true]
    omega
  · simp only [negative, decide_false, Bool.false_eq_true, if_false]
    omega

theorem mem_sign {n : Int} {c : Char} : c ∈ sign n ↔ n < 0 ∧ c = '-' := by
  unfold sign
  split_ifs with negative <;> simp [negative]

theorem value_zeroPadded (width : Nat) (n : Int) : value (zeroPadded width n) = n := by
  rw [zeroPadded]
  apply value_padded
  · intro c member
    obtain signed | zero := List.mem_append.mp member
    · rw [(mem_sign.mp signed).2]
      decide
    · rw [List.eq_of_mem_replicate zero]
      decide
  · simp [mem_sign, List.mem_replicate]

theorem value_blankPadded (width : Nat) (n : Int) : value (blankPadded width n) = n := by
  rw [blankPadded, ← List.append_assoc]
  apply value_padded
  · intro c member
    obtain blank | signed := List.mem_append.mp member
    · rw [List.eq_of_mem_replicate blank]
      decide
    · rw [(mem_sign.mp signed).2]
      decide
  · simp [mem_sign, List.mem_replicate]

theorem word_inj {m n : Int} : word m = word n ↔ m = n := by
  constructor
  · intro same
    have digits := congrArg (fun text => value text.toList) same
    simpa [word, value_zeroPadded] using digits
  · rintro rfl
    rfl

theorem column_inj {width : Nat} {m n : Int} : column width m = column width n ↔ m = n := by
  constructor
  · intro same
    have digits := congrArg (fun text => value text.toList) same
    simpa [column, value_blankPadded] using digits
  · rintro rfl
    rfl

theorem mem_word {n : Int} {c : Char} (member : c ∈ (word n).toList) :
    c = '-' ∨ ∃ d < 16, c = digit d := by
  rw [word, String.toList_ofList, zeroPadded] at member
  obtain front | figure := List.mem_append.mp member
  · obtain signed | zero := List.mem_append.mp front
    · exact .inl (mem_sign.mp signed).2
    · exact .inr ⟨0, by decide, List.eq_of_mem_replicate zero⟩
  · exact .inr (mem_digits figure)

theorem mem_column {width : Nat} {n : Int} {c : Char} (member : c ∈ (column width n).toList) :
    c = ' ' ∨ c = '-' ∨ ∃ d < 16, c = digit d := by
  rw [column, String.toList_ofList, blankPadded] at member
  obtain blank | number := List.mem_append.mp member
  · exact .inl (List.eq_of_mem_replicate blank)
  · obtain signed | figure := List.mem_append.mp number
    · exact .inr (.inl (mem_sign.mp signed).2)
    · exact .inr (.inr (mem_digits figure))

theorem length_digits_le {n width : Nat} (positive : 0 < width) (fits : n < 16 ^ width) :
    (digits n).length ≤ width := by
  induction n using digits.induct generalizing width with
  | case1 n small =>
    rw [digits, if_pos small]
    exact positive
  | case2 n large ih =>
    obtain ⟨width, rfl⟩ : ∃ w, width = w + 1 := ⟨width - 1, by omega⟩
    have wider : 0 < width := by
      by_contra narrow
      obtain rfl : width = 0 := by omega
      omega
    have fewer := ih wider (by rw [Nat.pow_succ] at fits; omega)
    rw [digits, if_neg large, List.length_append, List.length_singleton]
    omega

theorem column_one {d : Nat} (small : d < 16) : column 1 d = String.singleton (digit d) := by
  have unsigned : sign d = [] := if_neg (by omega)
  rw [column, blankPadded, unsigned, Int.natAbs_natCast, digits, if_pos small]
  rfl

/-- A number that fits its column fills it. -/
theorem length_column {n : Int} {width : Nat} (positive : 0 < width) (low : 0 ≤ n)
    (high : n < 16 ^ width) : (column width n).length = width := by
  obtain ⟨k, rfl⟩ := Int.eq_ofNat_of_zero_le low
  have unsigned : sign k = [] := if_neg (by omega)
  have fits : (digits k).length ≤ width := length_digits_le positive (by exact_mod_cast high)
  rw [column, String.length_ofList, blankPadded, unsigned, List.nil_append, List.length_append,
    List.length_replicate, Int.natAbs_natCast]
  omega

end Hexadecimal

end HexConsole
