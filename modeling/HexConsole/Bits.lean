/-!
# Integers as bit strings

A negative integer is read as an endless run of ones to the left, so the three
connectives are defined on all integers. On naturals they are the usual ones.

A mask is a natural number. Under it every integer is a natural number that is not
above the mask, so some digits of an integer can be read whatever its sign.
-/
namespace HexConsole.Bits

/-- The bits of the first number that are not set in the second. -/
def without (m n : Nat) : Nat := m ^^^ (m &&& n)

def and : Int → Int → Int
  | .ofNat m, .ofNat n => .ofNat (m &&& n)
  | .ofNat m, .negSucc n => .ofNat (without m n)
  | .negSucc m, .ofNat n => .ofNat (without n m)
  | .negSucc m, .negSucc n => .negSucc (m ||| n)

def or : Int → Int → Int
  | .ofNat m, .ofNat n => .ofNat (m ||| n)
  | .ofNat m, .negSucc n => .negSucc (without n m)
  | .negSucc m, .ofNat n => .negSucc (without m n)
  | .negSucc m, .negSucc n => .negSucc (m &&& n)

def xor : Int → Int → Int
  | .ofNat m, .ofNat n => .ofNat (m ^^^ n)
  | .ofNat m, .negSucc n => .negSucc (m ^^^ n)
  | .negSucc m, .ofNat n => .negSucc (m ^^^ n)
  | .negSucc m, .negSucc n => .ofNat (m ^^^ n)

theorem without_le (m n : Nat) : without m n ≤ m := by
  apply Nat.le_of_testBit
  intro i
  simp only [without, Nat.testBit_xor, Nat.testBit_and]
  cases m.testBit i <;> simp

theorem exists_and_mask (n : Int) (mask : Nat) : ∃ m ≤ mask, and n mask = (m : Nat) := by
  cases n with
  | ofNat k => exact ⟨k &&& mask, Nat.and_le_right, rfl⟩
  | negSucc k => exact ⟨without mask k, without_le mask k, rfl⟩

theorem toNat_field_le (n : Int) (mask shift : Nat) :
    (and n mask >>> shift).toNat ≤ mask >>> shift := by
  obtain ⟨m, low, masked⟩ := exists_and_mask n mask
  rw [masked, Int.shiftRight_eq_div_pow, Nat.shiftRight_eq_div_pow]
  exact Int.toNat_le.mpr (by exact_mod_cast Nat.div_le_div_right low)

/-- What an integer has under a mask, moved to the right by some places. -/
def field (n : Int) (mask shift : Nat) : Fin (mask >>> shift + 1) :=
  ⟨(and n mask >>> shift).toNat, Nat.lt_succ_of_le (toNat_field_le n mask shift)⟩

end HexConsole.Bits
