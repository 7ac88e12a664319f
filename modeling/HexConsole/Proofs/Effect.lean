import HexConsole.Proofs.Block
import HexConsole.Proofs.Sprite

/-!
# The effects of instructions

On a nominal machine an instruction is all or nothing: it gives a machine or a fault.
This file says which, instruction by instruction, without the order in which cells are
used. Main statement: running an instruction has the effect listed for it, and a fault
leaves the machine as it was.
-/
namespace HexConsole

/-- The operand and the address that a fault of an instruction carries. -/
def Fault.origin? : Fault → Option (Int × Int)
  | unknownInstruction operand counter => some (operand, counter)
  | outOfBounds _ operand counter _ => some (operand, counter)
  | stackOverflow operand counter => some (operand, counter)
  | stackUnderflow operand counter => some (operand, counter)
  | romTooLarge _ _ => none

namespace Machine

variable {m : Machine}

/-- A machine that is reached if a range from the index on lies in memory. The fault
gives the first address of the range that does not. -/
def withinMemory (m : Machine) (length : Nat) (result : Machine) : Except Fault Machine :=
  if length = 0 ∨ m.index + length ≤ memorySize then .ok result
  else .error (.outOfBounds (max m.index memorySize) m.operand m.operandAddress "memory")

/-- A machine that depends on the key that a register names. -/
def withKey (m : Machine) (x : Register) (result : Bool → Machine) : Except Fault Machine :=
  if 16 ≤ m.reg x then .error (.outOfBounds (m.reg x) m.operand m.operandAddress "key")
  else .ok (result (m.keyDown (m.reg x)))

def skippedIf (m : Machine) (condition : Bool) : Machine :=
  if condition then { m with counter := m.counter + 2 } else m

/-- A byte result in a register, and then a flag. -/
def concluded (m : Machine) (x : Register) (result : Int) (flag : Bool) : Machine :=
  (m.setReg x (result % 256)).setReg 15 (if flag then 1 else 0)

def computed (m : Machine) (x y : Register) : Arithmetic → Machine
  | .copy => m.setReg x (m.reg y)
  | .or => m.setReg x (Bits.or (m.reg x) (m.reg y))
  | .and => m.setReg x (Bits.and (m.reg x) (m.reg y))
  | .xor => m.setReg x (Bits.xor (m.reg x) (m.reg y))
  | .add => m.concluded x (m.reg x + m.reg y) (decide (255 < m.reg x + m.reg y))
  | .subtract => m.concluded x (m.reg x - m.reg y) (decide (m.reg y ≤ m.reg x))
  | .subtractFrom => m.concluded x (m.reg y - m.reg x) (decide (m.reg x ≤ m.reg y))
  | .shiftRight =>
    let flagged := m.setReg 15 (m.reg x % 2)
    flagged.setReg x (flagged.reg x / 2)
  | .shiftLeft =>
    let flagged := m.setReg 15 (m.reg x / 128 % 2)
    flagged.setReg x (flagged.reg x * 2 % 256)

/-- The machine with the sprite at the index drawn at the place that two registers
give. -/
def drawn (m : Machine) (x y : Register) (height : Nat) : Machine :=
  let p := m.sprite (m.reg x) (m.reg y) m.index height
  { m.setReg 15 (if m.frame.meets p then 1 else 0) with
    frame := m.frame.inverted p
    redraw := true }

theorem reg_drawn (h : m.registers.size = 16) (x y z : Register) (height : Nat) :
    (m.drawn x y height).reg z =
      if 15 = z then
        if m.frame.meets (m.sprite (m.reg x) (m.reg y) m.index height) then 1 else 0
      else m.reg z := by
  rw [← reg_setReg h]
  simp only [reg, drawn]

/-- The machine with the decimal digits of a byte in the three cells at the index. -/
def withDigits (m : Machine) (value : Int) : Machine :=
  ((m.setByte m.index (value / 100)).setByte (m.index + 1) (value / 10 % 10)).setByte
    (m.index + 1 + 1) (value % 10)

/-- The machine after an instruction, or the fault that it raises. -/
def effect (m : Machine) (byte : Int) : Instruction → Except Fault Machine
  | .clearScreen => .ok { m with frame := .blank, redraw := true }
  | .leave =>
    if m.depth = 0 then .error (.stackUnderflow m.operand m.operandAddress)
    else .ok { m with depth := m.depth - 1, counter := m.returnAt (m.depth - 1) }
  | .jump target => .ok { m with counter := target.val }
  | .call target =>
    if m.depth = stackDepth then .error (.stackOverflow m.operand m.operandAddress)
    else .ok { m.setReturn m.depth m.counter with depth := m.depth + 1, counter := target.val }
  | .skipIfEquals x constant => .ok (m.skippedIf (m.reg x == constant.val))
  | .skipUnlessEquals x constant => .ok (m.skippedIf (m.reg x != constant.val))
  | .skipIfSame x y => .ok (m.skippedIf (m.reg x == m.reg y))
  | .skipUnlessSame x y => .ok (m.skippedIf (m.reg x != m.reg y))
  | .setRegister x constant => .ok (m.setReg x constant.val)
  | .addConstant x constant => .ok (m.setReg x ((m.reg x + constant.val) % 256))
  | .compute how x y => .ok (m.computed x y how)
  | .setIndex address => .ok { m with index := address.val }
  | .jumpBeyond base => .ok { m with counter := m.reg 0 + base.val }
  | .random x mask => .ok (m.setReg x (Bits.and mask.val byte))
  | .draw x y height => m.withinMemory height.val (m.drawn x y height.val)
  | .skipIfPressed x => m.withKey x fun down => m.skippedIf down
  | .skipUnlessPressed x => m.withKey x fun down => m.skippedIf !down
  | .readDelay x => .ok (m.setReg x m.delay)
  | .awaitKey x =>
    match m.keys.first? with
    | some key => .ok (m.setReg x key)
    | none => .ok { m with counter := m.counter - 2 }
  | .setDelay x => .ok { m with delay := m.reg x }
  | .setSound x => .ok { m with sound := m.reg x }
  | .addIndex x => .ok { m with index := (m.index + m.reg x) % 65536 }
  | .pointAtGlyph x => .ok { m with index := m.reg x * glyphSize }
  | .storeDecimal x => m.withinMemory 3 (m.withDigits (m.reg x))
  | .storeRegisters last => m.withinMemory (last.val + 1) (m.saved (last.val + 1))
  | .loadRegisters last => m.withinMemory (last.val + 1) (m.restored (last.val + 1))

/-- How a step ends that gives a machine or a fault without a change. -/
def ended (m : Machine) : Except Fault Machine → EStateM.Result Failure Machine Unit
  | .ok result => .ok () result
  | .error f => .error (.fault f) m

namespace Step

theorem run_requireRange (m : Machine) (length : Nat) :
    (requireRange m.index length).run m = m.ended (m.withinMemory length m) := by
  rw [requireRange, run_bind, run_get]
  unfold withinMemory
  by_cases fits : length = 0 ∨ m.index + length ≤ memorySize
  · have allowed : ¬(0 < length ∧ memorySize ≤ m.index + length - 1) := by omega
    simp only [if_pos fits, if_neg allowed]
    rfl
  · have refused : 0 < length ∧ memorySize ≤ m.index + length - 1 := by omega
    simp only [if_neg fits, if_pos refused]
    rfl

/-- What follows a range check. -/
theorem run_requireRange_bind (m : Machine) (length : Nat) (next : Unit → Step Unit)
    (result : Machine)
    (inside : length = 0 ∨ m.index + length ≤ memorySize → (next ()).run m = .ok () result) :
    (requireRange m.index length >>= next).run m = m.ended (m.withinMemory length result) := by
  rw [run_bind, run_requireRange]
  unfold withinMemory
  split_ifs with fits
  · exact inside fits
  · rfl

theorem run_keyOf_bind (h : m.Nominal) (x : Register) (next : Bool → Step Unit)
    (result : Bool → Machine) (ends : ∀ down, (next down).run m = .ok () (result down)) :
    (keyOf x >>= next).run m = m.ended (m.withKey x result) := by
  have low := (h.octet_reg x).1
  unfold withKey
  by_cases far : 16 ≤ m.reg x
  · simp [keyOf, h.registers, far, ended]
  · simp [keyOf, h.registers, far, run_key low (by omega), ends, ended]

theorem run_skipIf (m : Machine) (condition : Bool) :
    (skipIf condition).run m = .ok () (m.skippedIf condition) := by
  cases condition <;> rfl

theorem run_compute (h : m.registers.size = 16) (x y : Register) (how : Arithmetic) :
    (compute x y how).run m = .ok () (m.computed x y how) := by
  cases how <;> simp [compute, conclude, computed, concluded, h]

theorem run_leave (h : m.Nominal) :
    leave.run m = m.ended (m.effect 0 .leave) := by
  obtain ⟨low, high⟩ := h.depth
  by_cases empty : m.depth = 0
  · simp [leave, effect, empty, ended]
  · simp [leave, effect, empty, ended, jump, run_returnAddress (show 0 ≤ m.depth - 1 by omega)
      (by omega), returnAt]

theorem run_call (h : m.Nominal) (target : Fin 4096) :
    (call target.val).run m = m.ended (m.effect 0 (.call target)) := by
  obtain ⟨low, high⟩ := h.depth
  by_cases full : m.depth = stackDepth
  · simp [call, effect, full, ended]
  · have room : m.depth < 16 := by simp only [stackDepth] at full; omega
    simp [call, effect, full, ended, jump, run_setReturnAddress m.counter low room, setReturn]

/-- Clearing the flag and raising it on a collision is setting it once. -/
theorem struck_setReg_flag (m : Machine) (p : Stencil) :
    (m.setReg 15 0).struck p =
      { m.setReg 15 (if m.frame.meets p then 1 else 0) with frame := m.frame.inverted p } := by
  cases hit : m.frame.meets p <;>
    simp [struck, hit, setReg, Array.setIfInBounds_setIfInBounds]

theorem run_draw (h : m.Nominal) (x y : Register) (height : Nat) :
    (draw x y height).run m = m.ended (m.withinMemory height (m.drawn x y height)) := by
  rw [draw, run_bind, run_register h.registers]
  simp only
  rw [run_bind, run_register h.registers]
  simp only
  rw [run_bind, run_get]
  simp only
  apply run_requireRange_bind
  intro inside
  have rows := run_drawRows (m := m.setReg 15 0) h.memory (by simp [h.registers]) (m.reg x)
    (m.reg y) h.index.1 inside
  rw [show (m.setReg 15 0).sprite = m.sprite from rfl] at rows
  simp only [run_bind, run_setFlag h.registers, rows, run_modify, struck_setReg_flag, drawn]

theorem run_storeDecimal (h : m.Nominal) (x : Register) :
    (storeDecimal x).run m = m.ended (m.withinMemory 3 (m.withDigits (m.reg x))) := by
  rw [storeDecimal, run_bind, run_get]
  simp only
  apply run_requireRange_bind
  intro inside
  have start := h.index.1
  have fits : m.index + 3 ≤ memorySize := by omega
  have hundreds : Octet (m.reg x / 100) := (h.octet_reg x).ediv (by decide)
  have tens : Octet (m.reg x / 10 % 10) := Octet.digit _
  have ones : Octet (m.reg x % 10) := Octet.digit _
  have first := run_writeByte h.memory start (by omega) hundreds
  have second := run_writeByte (m := m.setByte m.index (m.reg x / 100))
    (by simp [h.memory]) (show 0 ≤ m.index + 1 by omega) (by omega) tens
  have third := run_writeByte
    (m := (m.setByte m.index (m.reg x / 100)).setByte (m.index + 1) (m.reg x / 10 % 10))
    (by simp [h.memory]) (show 0 ≤ m.index + 1 + 1 by omega) (by omega) ones
  simp only [run_bind, run_register h.registers, writeBytes, first, second, third, run_pure,
    withDigits]

theorem run_loadRegisters (memory : m.memory.size = memorySize) (registers : m.registers.size = 16)
    (start : 0 ≤ m.index) (last : Register) :
    (loadRegisters last).run m =
      m.ended (m.withinMemory (last.val + 1) (m.restored (last.val + 1))) := by
  apply run_requireRange_bind
  intro inside
  exact run_restoreRegisters memory registers start (by omega) (by omega)

theorem run_execute (h : m.Nominal) (byte : Int) (i : Instruction) :
    (execute byte i).run m = m.ended (m.effect byte i) := by
  have size := h.registers
  cases i with
  | leave => exact run_leave h
  | call target => exact run_call h target
  | compute how x y => exact run_compute size x y how
  | draw x y height => exact run_draw h x y height.val
  | skipIfPressed x => exact run_keyOf_bind h x _ _ fun down => run_skipIf m down
  | skipUnlessPressed x => exact run_keyOf_bind h x _ _ fun down => run_skipIf m !down
  | storeDecimal x => exact run_storeDecimal h x
  | storeRegisters last =>
    apply run_requireRange_bind
    intro inside
    exact run_saveRegisters h (by omega) (by omega)
  | loadRegisters last => exact run_loadRegisters h.memory size h.index.1 last
  | awaitKey x =>
    cases first : m.keys.first? <;> simp [execute, awaitKey, effect, first, ended, size, skip]
    rfl
  | skipIfEquals x constant => simp [execute, effect, ended, size, run_skipIf]
  | skipUnlessEquals x constant => simp [execute, effect, ended, size, run_skipIf]
  | skipIfSame x y => simp [execute, effect, ended, size, run_skipIf]
  | skipUnlessSame x y => simp [execute, effect, ended, size, run_skipIf]
  | setRegister x constant => simp [execute, effect, ended, size]
  | addConstant x constant => simp [execute, effect, ended, size]
  | random x mask => simp [execute, effect, ended, size]
  | readDelay x => simp [execute, effect, ended, size]
  | clearScreen => simp [execute, effect, ended]
  | jump | setIndex => rfl
  | jumpBeyond base => simp [execute, effect, ended, size, jump]
  | setDelay x => simp [execute, effect, ended, size]
  | setSound x => simp [execute, effect, ended, size]
  | addIndex x => simp [execute, effect, ended, size, setIndex]
  | pointAtGlyph x => simp [execute, effect, ended, size, setIndex]

end Step

/-! ## Inversion -/

theorem withinMemory_eq_ok_iff {length : Nat} {n result : Machine} :
    m.withinMemory length result = .ok n ↔
      (length = 0 ∨ m.index + length ≤ memorySize) ∧ result = n := by
  unfold withinMemory
  split_ifs with fits <;> simp [fits]

theorem withKey_eq_ok_iff {x : Register} {n : Machine} {result : Bool → Machine} :
    m.withKey x result = .ok n ↔ m.reg x < 16 ∧ result (m.keyDown (m.reg x)) = n := by
  unfold withKey
  split_ifs with far
  · simp [show ¬m.reg x < 16 by omega]
  · simp [show m.reg x < 16 by omega]

theorem withinMemory_eq_error_iff {length : Nat} {result : Machine} {f : Fault} :
    m.withinMemory length result = .error f ↔
      0 < length ∧ memorySize < m.index + length ∧
        f = .outOfBounds (max m.index memorySize) m.operand m.operandAddress "memory" := by
  unfold withinMemory
  split_ifs with fits
  · simp only [false_iff]
    omega
  · simp only [Except.error.injEq]
    constructor
    · rintro rfl
      exact ⟨by omega, by omega, rfl⟩
    · rintro ⟨-, -, rfl⟩
      rfl

theorem withKey_eq_error_iff {x : Register} {result : Bool → Machine} {f : Fault} :
    m.withKey x result = .error f ↔
      16 ≤ m.reg x ∧ f = .outOfBounds (m.reg x) m.operand m.operandAddress "key" := by
  unfold withKey
  split_ifs with far
  · simp only [Except.error.injEq, far, true_and, eq_comm]
  · simp [far]

/-- An instruction reports the operand and the address that the machine has noted. -/
theorem effect_origin {byte : Int} {i : Instruction} {f : Fault}
    (raised : m.effect byte i = .error f) : f.origin? = some (m.operand, m.operandAddress) := by
  cases i with
  | leave =>
    simp only [effect] at raised
    split_ifs at raised
    cases raised
    rfl
  | call target =>
    simp only [effect] at raised
    split_ifs at raised
    cases raised
    rfl
  | draw x y height =>
    obtain ⟨-, -, rfl⟩ := withinMemory_eq_error_iff.mp raised
    rfl
  | storeDecimal x =>
    obtain ⟨-, -, rfl⟩ := withinMemory_eq_error_iff.mp raised
    rfl
  | storeRegisters last =>
    obtain ⟨-, -, rfl⟩ := withinMemory_eq_error_iff.mp raised
    rfl
  | loadRegisters last =>
    obtain ⟨-, -, rfl⟩ := withinMemory_eq_error_iff.mp raised
    rfl
  | skipIfPressed x =>
    rw [effect, withKey_eq_error_iff] at raised
    rw [raised.2]
    rfl
  | skipUnlessPressed x =>
    rw [effect, withKey_eq_error_iff] at raised
    rw [raised.2]
    rfl
  | awaitKey x =>
    simp only [effect] at raised
    split at raised <;> cases raised
  | _ => cases raised

end Machine

end HexConsole
