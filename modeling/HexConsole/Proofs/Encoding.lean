import HexConsole.Proofs.Fields

/-!
# Encoding

The written form of every instruction: a family, and what stands in the other three digits.
Main statements: an operand that decodes to an instruction has the written form of it in its low
sixteen bits, and outside the family 0 every operand with this form decodes to it.
-/
namespace HexConsole

namespace Arithmetic

/-- The last nibble that stands for an arithmetic. -/
def nibble : Arithmetic → Nat
  | copy => 0x0
  | or => 0x1
  | and => 0x2
  | xor => 0x3
  | add => 0x4
  | subtract => 0x5
  | shiftRight => 0x6
  | subtractFrom => 0x7
  | shiftLeft => 0xE

end Arithmetic

namespace Instruction

/-- The sixteen bits in which an instruction is written. -/
def word : Instruction → Nat
  | clearScreen => 0x00E0
  | leave => 0x00EE
  | jump target => 0x1000 + target.val
  | call target => 0x2000 + target.val
  | skipIfEquals x constant => 0x3000 + 0x100 * x.val + constant.val
  | skipUnlessEquals x constant => 0x4000 + 0x100 * x.val + constant.val
  | skipIfSame x y => 0x5000 + 0x100 * x.val + 0x10 * y.val
  | setRegister x constant => 0x6000 + 0x100 * x.val + constant.val
  | addConstant x constant => 0x7000 + 0x100 * x.val + constant.val
  | compute how x y => 0x8000 + 0x100 * x.val + 0x10 * y.val + how.nibble
  | skipUnlessSame x y => 0x9000 + 0x100 * x.val + 0x10 * y.val
  | setIndex address => 0xA000 + address.val
  | jumpBeyond base => 0xB000 + base.val
  | random x mask => 0xC000 + 0x100 * x.val + mask.val
  | draw x y height => 0xD000 + 0x100 * x.val + 0x10 * y.val + height.val
  | skipIfPressed x => 0xE09E + 0x100 * x.val
  | skipUnlessPressed x => 0xE0A1 + 0x100 * x.val
  | readDelay x => 0xF007 + 0x100 * x.val
  | awaitKey x => 0xF00A + 0x100 * x.val
  | setDelay x => 0xF015 + 0x100 * x.val
  | setSound x => 0xF018 + 0x100 * x.val
  | addIndex x => 0xF01E + 0x100 * x.val
  | pointAtGlyph x => 0xF029 + 0x100 * x.val
  | storeDecimal x => 0xF033 + 0x100 * x.val
  | storeRegisters last => 0xF055 + 0x100 * last.val
  | loadRegisters last => 0xF065 + 0x100 * last.val

theorem nibble_of_arithmetic? {nibble : Nat} {how : Arithmetic}
    (selected : arithmetic? nibble = some how) : nibble = how.nibble := by
  unfold arithmetic? at selected
  split at selected <;> cases selected <;> rfl

theorem word_of_keyTest? {x : Register} {byte : Nat} {i : Instruction}
    (selected : keyTest? x byte = some i) : i.word = 0xE000 + 0x100 * x.val + byte := by
  unfold keyTest? at selected
  split at selected <;> cases selected <;> simp only [word] <;> omega

theorem word_of_service? {x : Register} {byte : Nat} {i : Instruction}
    (selected : service? x byte = some i) : i.word = 0xF000 + 0x100 * x.val + byte := by
  unfold service? at selected
  split at selected <;> cases selected <;> simp only [word] <;> omega

theorem word_of_ofWord? {u : Nat} {i : Instruction} (decoded : ofWord? u = some i) :
    i.word = u := by
  have x : (Fin.ofNat 16 (u / 256)).val = u / 256 % 16 := rfl
  have byte : (Fin.ofNat 256 u).val = u % 256 := rfl
  unfold ofWord? at decoded
  simp only at decoded
  split at decoded
  case h_5 family =>
    split_ifs at decoded with zero
    cases decoded
    simp only [word, Fin.ofNat, Fin.ext_iff] at zero ⊢
    omega
  case h_8 family =>
    obtain ⟨how, selected, rfl⟩ := Option.map_eq_some_iff.mp decoded
    have nibble := nibble_of_arithmetic? selected
    simp only [word, Fin.ofNat] at nibble ⊢
    omega
  case h_9 family =>
    split_ifs at decoded with zero
    cases decoded
    simp only [word, Fin.ofNat, Fin.ext_iff] at zero ⊢
    omega
  case h_14 family =>
    rw [word_of_keyTest? decoded, x, byte]
    omega
  case h_15 family =>
    rw [word_of_service? decoded, x, byte]
    omega
  case h_16 => cases decoded
  all_goals
    cases decoded
    simp only [word, Fin.ofNat]
    omega

/-- An operand has the written form of the instruction that it decodes to. -/
theorem word_of_decode {operand : Int} {i : Instruction} (decoded : decode operand = some i) :
    operand % 65536 = i.word := by
  rw [decode_eq] at decoded
  split_ifs at decoded with clear leave
  · cases decoded
    subst clear
    rfl
  · cases decoded
    subst leave
    rfl
  · have word := word_of_ofWord? decoded
    omega

/-! ## Reading a written form -/

section Digits

variable (base family : Nat)

theorem address_digits (whole : base = 0x1000 * family) (address : Fin 4096) :
    (base + address.val) / 4096 = family ∧ Fin.ofNat 4096 (base + address.val) = address := by
  simp only [Fin.ext_iff, Fin.ofNat]
  omega

theorem constant_digits (whole : base = 0x1000 * family) (x : Register) (constant : Fin 256) :
    (base + 0x100 * x.val + constant.val) / 4096 = family ∧
      Fin.ofNat 16 ((base + 0x100 * x.val + constant.val) / 256) = x ∧
      Fin.ofNat 256 (base + 0x100 * x.val + constant.val) = constant := by
  simp only [Fin.ext_iff, Fin.ofNat]
  omega

theorem register_digits (whole : base = 0x1000 * family) (x y : Register) (nibble : Fin 16) :
    (base + 0x100 * x.val + 0x10 * y.val + nibble.val) / 4096 = family ∧
      Fin.ofNat 16 ((base + 0x100 * x.val + 0x10 * y.val + nibble.val) / 256) = x ∧
      Fin.ofNat 16 ((base + 0x100 * x.val + 0x10 * y.val + nibble.val) / 16) = y ∧
      Fin.ofNat 16 (base + 0x100 * x.val + 0x10 * y.val + nibble.val) = nibble := by
  simp only [Fin.ext_iff, Fin.ofNat]
  omega

theorem byte_digits (byte : Fin 256) (whole : base = 0x1000 * family + byte.val) (x : Register) :
    (base + 0x100 * x.val) / 4096 = family ∧ Fin.ofNat 16 ((base + 0x100 * x.val) / 256) = x ∧
      Fin.ofNat 256 (base + 0x100 * x.val) = byte := by
  simp only [Fin.ext_iff, Fin.ofNat]
  omega

end Digits

theorem arithmetic?_nibble (how : Arithmetic) : arithmetic? how.nibble = some how := by
  cases how <;> rfl

theorem ofWord?_keyTest (byte : Fin 256) (x : Register) :
    ofWord? (0xE000 + byte.val + 0x100 * x.val) = keyTest? x byte.val := by
  obtain ⟨family, register, constant⟩ := byte_digits (0xE000 + byte.val) 0xE byte rfl x
  simp only [ofWord?, family, register, constant]

theorem ofWord?_service (byte : Fin 256) (x : Register) :
    ofWord? (0xF000 + byte.val + 0x100 * x.val) = service? x byte.val := by
  obtain ⟨family, register, constant⟩ := byte_digits (0xF000 + byte.val) 0xF byte rfl x
  simp only [ofWord?, family, register, constant]

theorem ofWord?_compute (how : Arithmetic) (x y : Register) :
    ofWord? (0x8000 + 0x100 * x.val + 0x10 * y.val + how.nibble) = some (.compute how x y) := by
  have low : how.nibble < 16 := by cases how <;> decide
  obtain ⟨family, first, second, nibble⟩ := register_digits 0x8000 8 rfl x y ⟨how.nibble, low⟩
  simp only [ofWord?, family, first, second, nibble, arithmetic?_nibble, Option.map_some]

/-- Outside the family 0 the written form of an instruction is read as this instruction. -/
theorem ofWord?_word {i : Instruction} (outside : 0x1000 ≤ i.word) : ofWord? i.word = some i := by
  cases i with
  | clearScreen | leave => simp [word] at outside
  | jump target =>
    obtain ⟨family, address⟩ := address_digits 0x1000 0x1 rfl target
    simp only [word, ofWord?, family, address]
  | call target =>
    obtain ⟨family, address⟩ := address_digits 0x2000 0x2 rfl target
    simp only [word, ofWord?, family, address]
  | setIndex address =>
    obtain ⟨family, address⟩ := address_digits 0xA000 0xA rfl address
    simp only [word, ofWord?, family, address]
  | jumpBeyond base =>
    obtain ⟨family, address⟩ := address_digits 0xB000 0xB rfl base
    simp only [word, ofWord?, family, address]
  | skipIfEquals x constant =>
    obtain ⟨family, register, constant⟩ := constant_digits 0x3000 0x3 rfl x constant
    simp only [word, ofWord?, family, register, constant]
  | skipUnlessEquals x constant =>
    obtain ⟨family, register, constant⟩ := constant_digits 0x4000 0x4 rfl x constant
    simp only [word, ofWord?, family, register, constant]
  | setRegister x constant =>
    obtain ⟨family, register, constant⟩ := constant_digits 0x6000 0x6 rfl x constant
    simp only [word, ofWord?, family, register, constant]
  | addConstant x constant =>
    obtain ⟨family, register, constant⟩ := constant_digits 0x7000 0x7 rfl x constant
    simp only [word, ofWord?, family, register, constant]
  | random x mask =>
    obtain ⟨family, register, constant⟩ := constant_digits 0xC000 0xC rfl x mask
    simp only [word, ofWord?, family, register, constant]
  | skipIfSame x y =>
    obtain ⟨family, first, second, nibble⟩ := register_digits 0x5000 0x5 rfl x y 0
    simp only [Fin.val_zero, Nat.add_zero] at family first second nibble
    simp only [word, ofWord?, family, first, second, nibble, if_pos]
  | skipUnlessSame x y =>
    obtain ⟨family, first, second, nibble⟩ := register_digits 0x9000 0x9 rfl x y 0
    simp only [Fin.val_zero, Nat.add_zero] at family first second nibble
    simp only [word, ofWord?, family, first, second, nibble, if_pos]
  | compute how x y => exact ofWord?_compute how x y
  | draw x y height =>
    obtain ⟨family, first, second, nibble⟩ := register_digits 0xD000 0xD rfl x y height
    simp only [word, ofWord?, family, first, second, nibble]
  | skipIfPressed x => exact ofWord?_keyTest 0x9E x
  | skipUnlessPressed x => exact ofWord?_keyTest 0xA1 x
  | readDelay x => exact ofWord?_service 0x07 x
  | awaitKey x => exact ofWord?_service 0x0A x
  | setDelay x => exact ofWord?_service 0x15 x
  | setSound x => exact ofWord?_service 0x18 x
  | addIndex x => exact ofWord?_service 0x1E x
  | pointAtGlyph x => exact ofWord?_service 0x29 x
  | storeDecimal x => exact ofWord?_service 0x33 x
  | storeRegisters last => exact ofWord?_service 0x55 last
  | loadRegisters last => exact ofWord?_service 0x65 last

/-- An operand that has the written form of an instruction in its low sixteen bits decodes to it. In
the family 0 the other bits count as well. -/
theorem decode_of_word {operand : Int} {i : Instruction} (written : operand % 65536 = i.word)
    (outside : 0x1000 ≤ i.word) : decode operand = some i := by
  have word : (operand % 65536).toNat = i.word := by omega
  rw [decode_eq, if_neg (by omega), if_neg (by omega), word, ofWord?_word outside]

end Instruction

end HexConsole
