import HexConsole.Text.Integer
import Mathlib.Data.List.Basic
import Mathlib.Data.List.TakeWhile
import Mathlib.Tactic.Common

/-!
# Reading decimal integers back

An integer in its plain decimal form has a minus sign if it is negative, and then digits without
blanks or underscores. Main statements: the form reads back as the integer that it was written for,
as long as it has no more digits than may be read, and with a minus sign it looks negative.
-/
namespace HexConsole

theorem digit_bounds {c : Char} (digit : c.isDigit = true) : 0x30 ≤ c.toNat ∧ c.toNat < 0x3A := by
  have bounds := Char.isDigit_iff_toNat.mp digit
  rw [show '0'.toNat = 0x30 from rfl, show '9'.toNat = 0x39 from rfl] at bounds
  omega

theorem digitValue?_of_isDigit {c : Char} (digit : c.isDigit = true) :
    digitValue? c = some (c.toNat - '0'.toNat) := by
  have first : digitZeros.find? (fun z => z ≤ c.toNat && c.toNat < z + 10) = some 0x30 :=
    List.find?_cons_of_pos (by simpa using digit_bounds digit)
  rw [digitValue?, first]
  rfl

theorem isDecimalDigit_of_isDigit {c : Char} (digit : c.isDigit = true) :
    isDecimalDigit c = true := by
  rw [isDecimalDigit, digitValue?_of_isDigit digit]
  rfl

theorem isBlank_of_isDigit {c : Char} (digit : c.isDigit = true) : isBlank c = false := by
  have bounds := digit_bounds digit
  rw [Bool.eq_false_iff]
  intro blank
  simp only [isBlank, inRanges, blankRanges, List.any_cons, List.any_nil, Bool.or_eq_true,
    Bool.and_eq_true, decide_eq_true_eq, Bool.false_eq_true, or_false] at blank
  omega

namespace Integer

/-! ## Digits -/

theorem isDigit_of_mem {n : Nat} {c : Char} (member : c ∈ Nat.toDigits 10 n) : c.isDigit = true :=
  Nat.isDigit_of_mem_toDigits (by decide) (by decide) member

theorem isGrouped_of_digits {s : List Char} (digits : ∀ c ∈ s, c.isDigit = true)
    (nonempty : s ≠ []) : isGrouped s = true := by
  induction s with
  | nil => exact absurd rfl nonempty
  | cons c rest ih =>
    obtain ⟨first, others⟩ := List.forall_mem_cons.mp digits
    cases rest with
    | nil => exact isDecimalDigit_of_isDigit first
    | cons d rest =>
      have unbroken : d ≠ '_' := by
        rintro rfl
        exact absurd (others '_' List.mem_cons_self) (by decide)
      have grouped := ih others (List.cons_ne_nil d rest)
      rw [isGrouped.eq_def]
      simp [isDecimalDigit_of_isDigit first, grouped, unbroken]

theorem readUnsigned_toDigits {n : Nat} (short : (Nat.toDigits 10 n).length ≤ mostDigits) :
    readUnsigned (Nat.toDigits 10 n) = some n := by
  have figures : (Nat.toDigits 10 n).filterMap digitValue? =
      (Nat.toDigits 10 n).map fun c => c.toNat - '0'.toNat :=
    List.filterMap_eq_map_iff_forall_eq_some.mpr fun c member =>
      digitValue?_of_isDigit (isDigit_of_mem member)
  have grouped : isGrouped (Nat.toDigits 10 n) = true :=
    isGrouped_of_digits (fun c member => isDigit_of_mem member) Nat.toDigits_ne_nil
  have sum : value ((Nat.toDigits 10 n).map fun c => c.toNat - '0'.toNat) = n := by
    rw [value, List.foldl_map, ← Nat.ofDigitChars_eq_foldl]
    exact Nat.ofDigitChars_ten_toDigits
  simp only [readUnsigned, figures, grouped, List.length_map, short, sum, decide_true,
    Bool.and_self, if_true]

/-! ## The sign -/

theorem toList_toString (n : Int) :
    (toString n).toList = if n < 0 then '-' :: Nat.toDigits 10 n.natAbs
      else Nat.toDigits 10 n.natAbs := by
  cases n with
  | ofNat m =>
    have plain : ¬ Int.ofNat m < 0 := Int.not_lt.mpr (Int.natCast_nonneg m)
    rw [if_neg plain]
    exact Nat.toList_repr
  | negSucc m =>
    rw [if_pos (Int.negSucc_lt_zero m)]
    show ("-" ++ (m + 1).repr).toList = _
    rw [String.toList_append, Nat.toList_repr]
    rfl

theorem mem_toString {n : Int} {c : Char} (member : c ∈ (toString n).toList) :
    c = '-' ∨ c.isDigit = true := by
  rw [toList_toString] at member
  split_ifs at member with negative
  · obtain sign | digit := List.mem_cons.mp member
    · exact .inl sign
    · exact .inr (isDigit_of_mem digit)
  · exact .inr (isDigit_of_mem member)

/-- The plain form tells its integer, however long it is. -/
theorem toString_inj {m n : Int} : toString m = toString n ↔ m = n := by
  have figures {a b : Nat} (same : Nat.toDigits 10 a = Nat.toDigits 10 b) : a = b := by
    rw [← Nat.ofDigitChars_ten_toDigits (n := a), same, Nat.ofDigitChars_ten_toDigits]
  -- A minus sign is not a digit.
  have unsigned {a b : Nat} (same : '-' :: Nat.toDigits 10 a = Nat.toDigits 10 b) : False :=
    absurd (isDigit_of_mem (same ▸ List.mem_cons_self)) (by decide)
  constructor
  · intro same
    rw [← String.toList_inj, toList_toString, toList_toString] at same
    split_ifs at same with below under under
    · have sizes := figures (List.cons.inj same).2
      omega
    · exact (unsigned same).elim
    · exact (unsigned same.symm).elim
    · have sizes := figures same
      omega
  · rintro rfl
    rfl

/-- A text without blanks has none at its ends. -/
theorem trim_eq_self {s : List Char} (unblank : ∀ c ∈ s, isBlank c = false) : trim s = s := by
  have kept : ∀ t : List Char, (∀ c ∈ t, isBlank c = false) → t.dropWhile isBlank = t := by
    intro t clear
    cases t with
    | nil => rfl
    | cons c rest => exact List.dropWhile_cons_of_neg (by simp [clear c List.mem_cons_self])
  have backwards : ∀ c ∈ s.reverse, isBlank c = false := fun c member =>
    unblank c (List.mem_reverse.mp member)
  rw [trim, kept s unblank, kept s.reverse backwards, List.reverse_reverse]

theorem readSigned_toDigits {n : Nat} (short : (Nat.toDigits 10 n).length ≤ mostDigits) :
    readSigned (Nat.toDigits 10 n) = some (n : Int) := by
  have unsigned := readUnsigned_toDigits short
  have digits : ∀ c ∈ Nat.toDigits 10 n, c.isDigit = true := fun c => isDigit_of_mem
  generalize Nat.toDigits 10 n = s at unsigned digits
  -- Digits do not start with a sign, so the last case is the only one.
  unfold readSigned
  split
  · exact absurd (digits '-' List.mem_cons_self) (by decide)
  · exact absurd (digits '+' List.mem_cons_self) (by decide)
  · rw [unsigned]
    rfl

theorem read_toString {n : Int} (short : (Nat.toDigits 10 n.natAbs).length ≤ mostDigits) :
    read (toString n) = some n := by
  have unblank : ∀ c ∈ (toString n).toList, isBlank c = false := by
    intro c member
    obtain rfl | digit := mem_toString member
    · decide
    · exact isBlank_of_isDigit digit
  rw [read, trim_eq_self unblank, toList_toString]
  split_ifs with negative
  · rw [readSigned, readUnsigned_toDigits short]
    show some (-(n.natAbs : Int)) = some n
    rw [Int.ofNat_natAbs_of_nonpos (by omega), Int.neg_neg]
  · rw [readSigned_toDigits short]
    congr 1
    omega

theorem looksNegative_of_digits {s : List Char} (digits : ∀ c ∈ s, c.isDigit = true)
    (nonempty : s ≠ []) : looksNegative ('-' :: s) = true := by
  have unbroken : s.getLast? ≠ some '\n' := by
    intro last
    exact absurd (digits '\n' (List.mem_of_getLast? last)) (by decide)
  have through : s.dropWhile isDecimalDigit = [] :=
    List.dropWhile_eq_nil_iff.mpr fun c member => isDecimalDigit_of_isDigit (digits c member)
  simp [looksNegative, unbroken, through, nonempty]

end Integer

end HexConsole
