import HexConsole.Machine.Execution
import HexConsole.Proofs.Octet
import HexConsole.Proofs.Stencil
import Mathlib.Tactic.SplitIfs

/-!
# Machines within their nominal ranges

A machine is nominal if its tables have their sizes and its registers, counters and
timers are in range. Single accesses to the tables of such a machine succeed: this
file says what each of them gives, so that nothing later has to look a cell up.
-/
namespace HexConsole

theorem Keypad.lt_of_first? {keys : Keypad} {key : Nat} (first : keys.first? = some key) :
    key < 16 := by
  obtain ⟨inside, -⟩ := List.findIdx?_eq_some_iff_getElem.mp first
  simpa using inside

namespace Machine

structure Nominal (m : Machine) : Prop where
  memory : m.memory.size = memorySize
  registers : m.registers.size = 16
  octets : ∀ v ∈ m.registers, Octet v
  index : 0 ≤ m.index ∧ m.index ≤ 65535
  counter : 0 ≤ m.counter ∧ m.counter ≤ 4350
  stack : ∀ a ∈ m.stack, 0 ≤ a ∧ a ≤ 4096
  depth : 0 ≤ m.depth ∧ m.depth ≤ 16
  delay : Octet m.delay
  sound : Octet m.sound

variable {m : Machine}

/-! ## Reading and writing single cells -/

/-- What a register holds. -/
def reg (m : Machine) (x : Register) : Int := m.registers[x.val]?.getD 0

def setReg (m : Machine) (x : Register) (value : Int) : Machine :=
  { m with registers := m.registers.setIfInBounds x.val value }

/-- The byte at an address that does not count from the end. -/
def byteAt (m : Machine) (address : Int) : Byte := m.memory[address.toNat]?.getD 0

def setByte (m : Machine) (address value : Int) : Machine :=
  { m with memory := m.memory.setIfInBounds address.toNat (BitVec.ofInt 8 value) }

/-- The return address at a level that does not count from the end. -/
def returnAt (m : Machine) (level : Int) : Int := m.stack[level.toNat]?.getD 0

def setReturn (m : Machine) (level address : Int) : Machine :=
  { m with stack := m.stack.setIfInBounds level.toNat address }

/-- Whether the key of a number that does not count from the end is down. -/
def keyDown (m : Machine) (number : Int) : Bool := m.keys[number.toNat]?.getD false

@[simp] theorem size_registers_setReg (m : Machine) (x : Register) (value : Int) :
    (m.setReg x value).registers.size = m.registers.size := by simp [setReg]

@[simp] theorem size_memory_setByte (m : Machine) (address value : Int) :
    (m.setByte address value).memory.size = m.memory.size := by simp [setByte]

theorem reg_setReg (h : m.registers.size = 16) (x y : Register) (value : Int) :
    (m.setReg x value).reg y = if x = y then value else m.reg y := by
  have hx : x.val < m.registers.size := by omega
  simp only [reg, setReg, Array.getElem?_setIfInBounds, Fin.ext_iff]
  split_ifs <;> rfl

namespace Nominal

theorem octet_reg (h : m.Nominal) (x : Register) : Octet (m.reg x) := by
  have hx : x.val < m.registers.size := by have := h.registers; omega
  apply h.octets
  simp [reg, hx]

theorem returnAt_bounds (h : m.Nominal) (level : Int) :
    0 ≤ m.returnAt level ∧ m.returnAt level ≤ 4096 := by
  unfold returnAt
  cases slot : m.stack[level.toNat]? with
  | none => simp
  | some a => exact h.stack a (Vector.mem_of_getElem? slot)

theorem withMemory (h : m.Nominal) {memory : Array Byte} (size : memory.size = memorySize) :
    { m with memory }.Nominal :=
  { h with memory := size }

theorem withRegisters (h : m.Nominal) {registers : Array Int} (size : registers.size = 16)
    (octets : ∀ v ∈ registers, Octet v) : { m with registers }.Nominal :=
  { h with registers := size, octets := octets }

theorem setReg (h : m.Nominal) (x : Register) {value : Int} (fits : Octet value) :
    (m.setReg x value).Nominal := by
  apply h.withRegisters
  · simp [h.registers]
  · intro v hv
    obtain old | rfl := Array.mem_or_eq_of_mem_setIfInBounds hv
    · exact h.octets v old
    · exact fits

end Nominal

/-! ## Running single accesses -/

theorem position?_of_bounds {n : Nat} {i : Int} (low : 0 ≤ i) (high : i < n) :
    position? n i = some ⟨i.toNat, by omega⟩ := by
  obtain ⟨k, rfl⟩ := Int.eq_ofNat_of_zero_le low
  exact position?_ofNat (by omega)

namespace Step

@[simp] theorem run_register (h : m.registers.size = 16) (x : Register) :
    (register x).run m = .ok (m.reg x) m := by
  have hx : x.val < m.registers.size := by omega
  simp [register, reg, hx]

@[simp] theorem run_setRegister (h : m.registers.size = 16) (x : Register) (value : Int) :
    (setRegister x value).run m = .ok () (m.setReg x value) := by
  have hx : x.val < m.registers.size := by omega
  simp [setRegister, setReg, hx]

@[simp] theorem run_setFlag (h : m.registers.size = 16) (value : Int) :
    (setFlag value).run m = .ok () (m.setReg 15 value) := run_setRegister h 15 value

theorem run_peek {address : Int} (low : 0 ≤ address) (high : address < m.memory.size) :
    (peek address).run m = .ok (m.byteAt address) m := by
  have inside : address.toNat < m.memory.size := by omega
  simp [peek, byteAt, position?_of_bounds low high, inside]

theorem run_writeByte {address value : Int} (h : m.memory.size = memorySize) (low : 0 ≤ address)
    (high : address < memorySize) (fits : Octet value) :
    (writeByte address value).run m = .ok () (m.setByte address value) := by
  have narrow : fitsIndex address = true := by
    simp only [fitsIndex, memorySize, Bool.and_eq_true, decide_eq_true_eq] at *
    omega
  simp [writeByte, setByte, narrow, isByte_iff.mpr fits,
    position?_of_bounds low (h ▸ high : address < m.memory.size)]

theorem run_key {number : Int} (low : 0 ≤ number) (high : number < 16) :
    (key number).run m = .ok (m.keyDown number) m := by
  have inside : number.toNat < 16 := by omega
  simp [key, keyDown, position?_of_bounds low high, inside]
  rfl

theorem run_returnAddress {level : Int} (low : 0 ≤ level) (high : level < 16) :
    (returnAddress level).run m = .ok (m.returnAt level) m := by
  have inside : level.toNat < 16 := by omega
  simp [returnAddress, returnAt, position?_of_bounds low high, inside]
  rfl

theorem run_setReturnAddress {level : Int} (address : Int) (low : 0 ≤ level) (high : level < 16) :
    (setReturnAddress level address).run m = .ok () (m.setReturn level address) := by
  simp [setReturnAddress, setReturn, position?_of_bounds low high]

theorem run_invert {x y : Int} (on : m.frame.inBounds x y = true) :
    (invert x y).run m =
      .ok (m.frame.shows x y) { m with frame := m.frame.inverted (Stencil.point x y) } := by
  simp [invert, Frame.cell?_of_inBounds m.frame on, Frame.shows_of_inBounds m.frame on,
    Frame.flip_place m.frame on]

end Step

end Machine

end HexConsole
