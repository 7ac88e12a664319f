import HexConsole.Bits
import HexConsole.Machine.Step

/-!
# Numbers that fit a cell

The connectives of two numbers in 0 … 255 stay in 0 … 255. For a mask, one of the
two numbers is enough: whatever the other is, the result is not above the mask.
-/
namespace HexConsole

/-- A number that fits a memory cell or a register. -/
def Octet (v : Int) : Prop := 0 ≤ v ∧ v ≤ 255

instance (v : Int) : Decidable (Octet v) := inferInstanceAs (Decidable (_ ∧ _))

theorem isByte_iff {v : Int} : Machine.Step.isByte v = true ↔ Octet v := by
  simp only [Machine.Step.isByte, Bool.and_eq_true, decide_eq_true_eq, Octet]
  omega

namespace Octet

theorem exists_nat {v : Int} (h : Octet v) : ∃ n : Nat, v = .ofNat n ∧ n < 256 :=
  ⟨v.toNat, by have := h.1; simp; omega, by have := h.2; omega⟩

theorem ofNat {n : Nat} (h : n < 256) : Octet (.ofNat n) :=
  ⟨Int.natCast_nonneg n, by simp only [Int.ofNat_eq_natCast]; omega⟩

theorem ofByte (b : Byte) : Octet b.toNat := ofNat b.isLt

theorem ofBool (b : Bool) : Octet (if b then 1 else 0) := by
  cases b <;> decide

theorem emod (v : Int) : Octet (v % 256) := by
  constructor <;> omega

theorem bit (v : Int) : Octet (v % 2) := by
  constructor <;> omega

theorem digit (v : Int) : Octet (v % 10) := by
  constructor <;> omega

theorem ofConstant (k : Fin 256) : Octet k.val := by
  constructor <;> omega

theorem ediv {v : Int} (h : Octet v) {d : Int} (positive : 0 < d) : Octet (v / d) :=
  ⟨Int.ediv_nonneg h.1 (by omega), Int.le_trans (Int.ediv_le_self d h.1) h.2⟩

theorem or {a b : Int} (ha : Octet a) (hb : Octet b) : Octet (Bits.or a b) := by
  obtain ⟨m, rfl, hm⟩ := ha.exists_nat
  obtain ⟨n, rfl, hn⟩ := hb.exists_nat
  exact ofNat (Nat.or_lt_two_pow (n := 8) hm hn)

theorem xor {a b : Int} (ha : Octet a) (hb : Octet b) : Octet (Bits.xor a b) := by
  obtain ⟨m, rfl, hm⟩ := ha.exists_nat
  obtain ⟨n, rfl, hn⟩ := hb.exists_nat
  exact ofNat (Nat.xor_lt_two_pow (n := 8) hm hn)

theorem without {m : Nat} (n : Nat) (hm : m < 256) : Octet (.ofNat (Bits.without m n)) :=
  ofNat (Nat.xor_lt_two_pow (n := 8) hm (Nat.lt_of_le_of_lt Nat.and_le_left hm))

theorem and {a : Int} (ha : Octet a) (b : Int) : Octet (Bits.and a b) := by
  obtain ⟨m, rfl, hm⟩ := ha.exists_nat
  cases b with
  | ofNat n => exact ofNat (Nat.lt_of_le_of_lt Nat.and_le_left hm)
  | negSucc n => exact without n hm

end Octet

end HexConsole
