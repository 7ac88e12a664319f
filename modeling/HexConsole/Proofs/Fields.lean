import HexConsole.Machine.Instruction
import Mathlib.Data.Fintype.Fin
import Mathlib.Tactic.FinCases
import Mathlib.Tactic.SplitIfs

/-!
# Fields of an operand

The digits of an operand are read with masks, from integers of any sign and width. Main
statements: under a mask of sixteen bits an integer is what its low sixteen bits are, so the fields
are the digits of a word, and an operand is decoded by its word unless it belongs to the family 0.
-/
namespace HexConsole

namespace Bits

/-- Under a mask nothing counts but the bits that the mask is long. -/
theorem and_of_lt {mask width : Nat} (narrow : mask < 2 ^ width) (n : Int) :
    and n mask = ((n % (2 ^ width : Nat)).toNat &&& mask : Nat) := by
  have beyond (i : Nat) (past : width ≤ i) : mask.testBit i = false :=
    Nat.testBit_lt_two_pow (Nat.lt_of_lt_of_le narrow (Nat.pow_le_pow_right (by decide) past))
  cases n with
  | ofNat k =>
    have low : (Int.ofNat k % (2 ^ width : Nat)).toNat = k % 2 ^ width := rfl
    rw [low]
    refine congrArg Int.ofNat (Nat.eq_of_testBit_eq fun i => ?_)
    by_cases inside : i < width
    · simp only [Nat.testBit_and, Nat.testBit_mod_two_pow, inside, decide_true, Bool.true_and]
    · simp only [Nat.testBit_and, beyond i (by omega), Bool.and_false]
  | negSucc k =>
    have bounded : k % 2 ^ width < 2 ^ width := Nat.mod_lt _ (Nat.two_pow_pos width)
    -- The complement of a number has the bits that the number lacks.
    have low : (Int.negSucc k % (2 ^ width : Nat)).toNat = 2 ^ width - (k % 2 ^ width + 1) := by
      generalize 2 ^ width = w at bounded ⊢
      rw [Int.negSucc_emod k (by omega)]
      omega
    rw [low]
    refine congrArg Int.ofNat (Nat.eq_of_testBit_eq fun i => ?_)
    by_cases inside : i < width
    · simp only [without, Nat.testBit_and, Nat.testBit_xor, Nat.testBit_two_pow_sub_succ bounded,
        Nat.testBit_mod_two_pow, inside, decide_true, Bool.true_and]
      cases mask.testBit i <;> cases k.testBit i <;> rfl
    · simp only [without, Nat.testBit_and, Nat.testBit_xor, beyond i (by omega), Bool.and_false,
        Bool.false_and, Bool.xor_false]

/-- A mask without gaps cuts digits out of a word. -/
theorem val_field {mask shift digits width : Nat} (narrow : mask < 2 ^ width)
    (whole : mask >>> shift = 2 ^ digits - 1) (n : Int) :
    (field n mask shift).val = (n % (2 ^ width : Nat)).toNat / 2 ^ shift % 2 ^ digits :=
  calc (field n mask shift).val
      = (and n mask >>> shift).toNat := rfl
    _ = ((n % (2 ^ width : Nat)).toNat &&& mask) >>> shift := by rw [and_of_lt narrow]; rfl
    _ = (n % (2 ^ width : Nat)).toNat / 2 ^ shift % 2 ^ digits := by
      rw [Nat.shiftRight_and_distrib, whole, Nat.and_two_pow_sub_one_eq_mod,
        Nat.shiftRight_eq_div_pow]

end Bits

namespace Operand

/-- The low sixteen bits of an operand. -/
def low (operand : Int) : Nat := (operand % 65536).toNat

variable (operand : Int)

theorem low_lt : low operand < 65536 := by
  unfold low
  omega

theorem val_field (mask shift digits : Nat) (narrow : mask < 2 ^ 16)
    (whole : mask >>> shift = 2 ^ digits - 1) :
    (Bits.field operand mask shift).val = low operand / 2 ^ shift % 2 ^ digits :=
  Bits.val_field narrow whole operand

theorem val_family : (family operand).val = low operand / 4096 := by
  have digit : (family operand).val = low operand / 4096 % 16 :=
    val_field operand 0xF000 12 4 (by decide) (by decide)
  have fits := low_lt operand
  omega

theorem x_eq : x operand = Fin.ofNat 16 (low operand / 256) :=
  Fin.ext (val_field operand 0x0F00 8 4 (by decide) (by decide))

theorem y_eq : y operand = Fin.ofNat 16 (low operand / 16) :=
  Fin.ext (val_field operand 0x00F0 4 4 (by decide) (by decide))

theorem val_last (mask digits : Nat) (narrow : mask < 2 ^ 16) (whole : mask = 2 ^ digits - 1) :
    (Bits.field operand mask 0).val = low operand % 2 ^ digits := by
  rw [val_field operand mask 0 digits narrow whole, Nat.pow_zero, Nat.div_one]

theorem nibble_eq : nibble operand = Fin.ofNat 16 (low operand) :=
  Fin.ext (val_last operand 0x000F 4 (by decide) (by decide))

theorem constant_eq : constant operand = Fin.ofNat 256 (low operand) :=
  Fin.ext (val_last operand 0x00FF 8 (by decide) (by decide))

theorem address_eq : address operand = Fin.ofNat 4096 (low operand) :=
  Fin.ext (val_last operand 0x0FFF 12 (by decide) (by decide))

end Operand

namespace Instruction

open Operand

/-- The instruction that the digits of a word stand for, outside the family 0. -/
def ofWord? (u : Nat) : Option Instruction :=
  let x := Fin.ofNat 16 (u / 256)
  let y := Fin.ofNat 16 (u / 16)
  let nibble := Fin.ofNat 16 u
  let constant := Fin.ofNat 256 u
  let address := Fin.ofNat 4096 u
  match u / 4096 with
  | 0x1 => some (.jump address)
  | 0x2 => some (.call address)
  | 0x3 => some (.skipIfEquals x constant)
  | 0x4 => some (.skipUnlessEquals x constant)
  | 0x5 => if nibble = 0 then some (.skipIfSame x y) else none
  | 0x6 => some (.setRegister x constant)
  | 0x7 => some (.addConstant x constant)
  | 0x8 => (arithmetic? nibble.val).map fun how => .compute how x y
  | 0x9 => if nibble = 0 then some (.skipUnlessSame x y) else none
  | 0xA => some (.setIndex address)
  | 0xB => some (.jumpBeyond address)
  | 0xC => some (.random x constant)
  | 0xD => some (.draw x y nibble)
  | 0xE => keyTest? x constant.val
  | 0xF => service? x constant.val
  | _ => none

/-- In the family 0 the operand is read as a whole, and in every other one by its digits. -/
theorem decode_eq_ofWord? (operand : Int) :
    decode operand = if low operand / 4096 = 0 then plain? operand else ofWord? (low operand) := by
  have table (k : Fin 16) (first : low operand / 4096 = k.val) : families[k] operand =
      if low operand / 4096 = 0 then plain? operand else ofWord? (low operand) := by
    simp only [ofWord?, ← x_eq, ← y_eq, ← nibble_eq, ← constant_eq, ← address_eq, first]
    fin_cases k <;> rfl
  exact table (family operand) (val_family operand).symm

/-- The two operands of the family 0 are given exactly, and of any other only the word counts. -/
theorem decode_eq (operand : Int) :
    decode operand =
      if operand = 0x00E0 then some .clearScreen
      else if operand = 0x00EE then some .leave
      else ofWord? (operand % 65536).toNat := by
  rw [decode_eq_ofWord?]
  change _ = if _ then _ else if _ then _ else ofWord? (low operand)
  split_ifs with zero clear leave clear leave
  · rw [clear]
    rfl
  · rw [leave]
    rfl
  · simp only [plain?, if_neg clear, if_neg leave, ofWord?, zero]
  · exact absurd (by rw [clear]; rfl) zero
  · exact absurd (by rw [leave]; rfl) zero
  · rfl

end Instruction

end HexConsole
