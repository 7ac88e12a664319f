import HexConsole.Proofs.Writing

/-!
# Results and their flags

A result has to fit a byte, and the flag keeps what the byte has lost: the carry of a sum, the
borrow of a difference, the bit that a shift pushes out. Main statement: result and flag together
give back the exact value, also where the two operands are one register or the second operand is
the flag. Only where the result itself goes to the flag one of the two is lost, and the order in
which they are written says which.
-/
namespace HexConsole

namespace Arithmetic

/-- What the result and the flag say together about the values that they come from. -/
def Balances (a b result flag : Int) : Arithmetic → Prop
  | add => result + 256 * flag = a + b
  | subtract => result = a - b + 256 * (1 - flag)
  | subtractFrom => result = b - a + 256 * (1 - flag)
  | shiftRight => a = 2 * result + flag
  | shiftLeft => 2 * a = result + 256 * flag
  | copy | or | and | xor => False

/-- What is left of a result that goes to the flag register. Sums and differences leave the flag
there, while a shift moves the bit that it has pushed out on. -/
def Leaves (a b left : Int) : Arithmetic → Prop
  | add => left = if 255 < a + b then 1 else 0
  | subtract => left = if b ≤ a then 1 else 0
  | subtractFrom => left = if a ≤ b then 1 else 0
  | shiftRight => left = 0
  | shiftLeft => left = 2 * (a / 128)
  | copy | or | and | xor => False

end Arithmetic

namespace Machine

variable {m : Machine} {x y : Register} {how : Arithmetic}

theorem octet_reg_of_forall (octets : ∀ v ∈ m.registers, Octet v) (x : Register) :
    Octet (m.reg x) := by
  unfold reg
  cases held : m.registers[x.val]? with
  | none => decide
  | some v => exact octets v (Array.mem_of_getElem? held)

theorem reg_concluded (size : m.registers.size = 16) (x z : Register) (result : Int)
    (flag : Bool) :
    (m.concluded x result flag).reg z =
      if 15 = z then if flag then 1 else 0 else if x = z then result % 256 else m.reg z := by
  rw [concluded, reg_setReg ((size_registers_setReg m x _).trans size), reg_setReg size]

/-- A register that is written after the flag. -/
theorem reg_flagged (size : m.registers.size = 16) (x z : Register) (flag result : Int) :
    ((m.setReg 15 flag).setReg x result).reg z =
      if x = z then result else if 15 = z then flag else m.reg z := by
  rw [reg_setReg ((size_registers_setReg m 15 _).trans size), reg_setReg size]

/-- Result and flag are two registers, and together they are exact. -/
theorem computed_balances (size : m.registers.size = 16) (hx : Octet (m.reg x))
    (hy : Octet (m.reg y)) (flags : how.flags = true) (apart : x ≠ 15) :
    let n := m.computed x y how
    Octet (n.reg x) ∧ (n.reg 15 = 0 ∨ n.reg 15 = 1) ∧
      how.Balances (m.reg x) (m.reg y) (n.reg x) (n.reg 15) := by
  obtain ⟨x_low, x_high⟩ := hx
  obtain ⟨y_low, y_high⟩ := hy
  have apart' : (15 : Register) ≠ x := apart.symm
  cases how with
  | copy | or | and | xor => cases flags
  | add | subtract | subtractFrom =>
    simp only [computed, reg_concluded size, if_neg apart', if_pos, Arithmetic.Balances, Octet,
      decide_eq_true_eq]
    split_ifs <;> omega
  | shiftRight | shiftLeft =>
    simp only [computed, reg_flagged size, reg_setReg size, if_neg apart, if_neg apart', if_pos,
      Arithmetic.Balances, Octet]
    omega

theorem computed_leaves (size : m.registers.size = 16) (hx : Octet (m.reg 15))
    (flags : how.flags = true) :
    how.Leaves (m.reg 15) (m.reg y) ((m.computed 15 y how).reg 15) := by
  obtain ⟨low, high⟩ := hx
  cases how with
  | copy | or | and | xor => cases flags
  | add | subtract | subtractFrom =>
    simp only [computed, reg_concluded size, if_pos, Arithmetic.Leaves, decide_eq_true_eq]
  | shiftRight | shiftLeft =>
    simp only [computed, reg_flagged size, reg_setReg size, if_pos, Arithmetic.Leaves]
    omega

/-- Computing writes registers and nothing else. -/
theorem computed_eq (m : Machine) (x y : Register) (how : Arithmetic) :
    m.computed x y how = { m with registers := (m.computed x y how).registers } := by
  cases how <;> rfl

end Machine

namespace Console

open Machine

variable {σ : Type} [RandomSource σ] {c : Console σ}

/-- A computation is carried out on any sixteen registers. -/
theorem process_compute (size : c.machine.registers.size = 16) (how : Arithmetic)
    (x y : Register) :
    let operand : Int := (Instruction.compute how x y).word
    c.process operand =
      ⟨{ c with machine := { c.machine with operand }.computed x y how }, none⟩ := by
  intro operand
  have outside : 0x1000 ≤ (Instruction.compute how x y).word := by
    simp only [Instruction.word]
    omega
  have decoded : Instruction.decode operand = some (.compute how x y) := by
    apply Instruction.decode_of_word _ outside
    simp only [operand, Instruction.word]
    cases how <;> simp only [Arithmetic.nibble] <;> omega
  exact process_of_run decoded rfl
    (Step.run_compute (m := { c.machine with operand }) size x y how)

/-- An operand that writes a result and a flag is carried out on any sixteen bytes. If the result
does not go to the flag register, result and flag give back the exact value. If it does, a sum and
a difference leave the flag there, and a shift leaves the shifted flag. All other registers, and
all other parts of the machine but the noted operand, stay. -/
theorem process_flag_arithmetic (size : c.machine.registers.size = 16)
    (octets : ∀ v ∈ c.machine.registers, Octet v) (x y : Register) {how : Arithmetic}
    (flags : how.flags = true) :
    let operand : Int := 0x8000 + 0x100 * x.val + 0x10 * y.val + how.nibble
    ∃ n, c.process operand = ⟨{ c with machine := n }, none⟩ ∧
      (x ≠ 15 → Octet (n.reg x) ∧ (n.reg 15 = 0 ∨ n.reg 15 = 1) ∧
        how.Balances (c.machine.reg x) (c.machine.reg y) (n.reg x) (n.reg 15)) ∧
      (x = 15 → how.Leaves (c.machine.reg 15) (c.machine.reg y) (n.reg 15)) ∧
      (∀ z, z ≠ x → z ≠ 15 → n.reg z = c.machine.reg z) ∧
      n.registers.size = 16 ∧ n = { c.machine with operand, registers := n.registers } := by
  intro operand
  have word : operand = ((Instruction.compute how x y).word : Int) := by
    simp only [operand, Instruction.word]
    omega
  have writes := Writes.computed (m := { c.machine with operand }) size how x y
  refine ⟨{ c.machine with operand }.computed x y how, ?_, ?_, ?_, ?_, ?_, ?_⟩
  · rw [word]
    exact process_compute size how x y
  · intro apart
    exact computed_balances (m := { c.machine with operand }) size (octet_reg_of_forall octets x)
      (octet_reg_of_forall octets y) flags apart
  · rintro rfl
    exact computed_leaves (m := { c.machine with operand }) size (octet_reg_of_forall octets 15)
      flags
  · intro z other flag
    exact writes.registers.2 z (by simp [Instruction.fills, other, flag])
  · exact writes.registers.1.trans size
  · exact computed_eq _ x y how

/-- 100 in the flag register is added to 200 in another one, and to itself in the flag register. -/
theorem process_flag_arithmetic_overlapping :
    let c : Console Tape := { assemble ⟨true, true⟩ (Tape.repeating #[]) .debug with
      machine := { Machine.initial with
        registers := #[0, 200, 0, 0, 0, 0, 0, 0, 0, 0, 0, 0, 0, 0, 0, 100] } }
    (c.machine.registers.size = 16 ∧ (∀ v ∈ c.machine.registers, Octet v) ∧
      Arithmetic.add.flags = true) ∧
    (∃ n, c.process 0x81F4 = ⟨{ c with machine := n }, none⟩ ∧
      n.reg 1 + 256 * n.reg 15 = 300 ∧ n.reg 2 = 0) ∧
    ∃ n, c.process 0x8FF4 = ⟨{ c with machine := n }, none⟩ ∧ n.reg 15 = 0 := by
  intro c
  have size : c.machine.registers.size = 16 := rfl
  have octets : ∀ v ∈ c.machine.registers, Octet v := by decide
  have flags : Arithmetic.add.flags = true := rfl
  obtain ⟨n, done, exact, -, others, -⟩ := process_flag_arithmetic size octets 1 15 flags
  obtain ⟨k, again, -, left, -⟩ := process_flag_arithmetic size octets 15 15 flags
  exact ⟨⟨size, octets, flags⟩,
    ⟨n, done, (exact (by decide)).2.2, others 2 (by decide) (by decide)⟩,
    k, again, left rfl⟩

end Console

end HexConsole
