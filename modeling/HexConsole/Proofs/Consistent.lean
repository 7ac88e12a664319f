import HexConsole.Fault.Description
import HexConsole.Proofs.Effect

/-!
# Consistent machines

A consistent machine is nominal, and what it has noted about its last instruction is in
range as well. Main statement: an instruction that has just been fetched leaves a
consistent machine consistent. A wait moves the counter back, and the counter stays
above zero only because it was moved past the wait before.
-/
namespace HexConsole

/-- The kinds of fault that halt a machine. -/
def FaultKind.halting : List FaultKind :=
  [.unknownInstruction, .outOfBounds, .stackOverflow, .stackUnderflow]

theorem Fault.kind_mem_halting {f : Fault} {place : Int × Int} (raised : f.origin? = some place) :
    f.kind ∈ FaultKind.halting := by
  cases f with
  | romTooLarge => cases raised
  | _ => simp [Fault.kind, FaultKind.halting]

namespace Machine

/-- What holds of a machine between the operations of a host. -/
structure Consistent (m : Machine) : Prop extends Nominal m where
  operand : 0 ≤ m.operand ∧ m.operand ≤ 65535
  operandAddress : 0 ≤ m.operandAddress ∧ m.operandAddress ≤ 4350
  fault : ∀ f ∈ m.fault, f.kind ∈ FaultKind.halting

variable {m n : Machine}

namespace Consistent

theorem withMemory (h : m.Consistent) {memory : Array Byte} (size : memory.size = memorySize) :
    { m with memory }.Consistent :=
  { h with toNominal := h.toNominal.withMemory size }

theorem withRegisters (h : m.Consistent) {registers : Array Int} (size : registers.size = 16)
    (octets : ∀ v ∈ registers, Octet v) : { m with registers }.Consistent :=
  { h with toNominal := h.toNominal.withRegisters size octets }

theorem withCounter (h : m.Consistent) {counter : Int} (low : 0 ≤ counter)
    (high : counter ≤ 4350) : { m with counter }.Consistent :=
  { h with counter := ⟨low, high⟩ }

theorem withIndex (h : m.Consistent) {index : Int} (low : 0 ≤ index) (high : index ≤ 65535) :
    { m with index }.Consistent :=
  { h with index := ⟨low, high⟩ }

theorem redrawn (h : m.Consistent) (frame : Frame 64 32) :
    { m with frame, redraw := true }.Consistent :=
  { h with }

theorem setReg (h : m.Consistent) (x : Register) {value : Int} (fits : Octet value) :
    (m.setReg x value).Consistent := by
  have set := h.toNominal.setReg x fits
  exact h.withRegisters set.registers set.octets

theorem setByte (h : m.Consistent) (address value : Int) : (m.setByte address value).Consistent :=
  h.withMemory (by simp [h.memory])

theorem skippedIf (h : m.Consistent) (advanced : m.counter ≤ 4096) (condition : Bool) :
    (m.skippedIf condition).Consistent := by
  have low := h.counter.1
  cases condition with
  | false => exact h
  | true => exact h.withCounter (by omega) (by omega)

theorem returned (h : m.Consistent) (deep : 0 < m.depth) :
    { m with depth := m.depth - 1, counter := m.returnAt (m.depth - 1) }.Consistent := by
  have depth : 0 ≤ m.depth - 1 ∧ m.depth - 1 ≤ 16 := by have := h.depth; omega
  obtain ⟨low, high⟩ := h.returnAt_bounds (m.depth - 1)
  exact { h.withCounter low (by omega) with depth := depth }

theorem called (h : m.Consistent) (room : m.depth < 16) (inside : m.counter ≤ 4096)
    (target : Fin 4096) :
    { m.setReturn m.depth m.counter with
      depth := m.depth + 1
      counter := target.val }.Consistent := by
  have depth : 0 ≤ m.depth + 1 ∧ m.depth + 1 ≤ 16 := by have := h.depth; omega
  have stack : ∀ a ∈ m.stack.setIfInBounds m.depth.toNat m.counter, 0 ≤ a ∧ a ≤ 4096 := by
    intro a ha
    obtain ⟨level, low, rfl⟩ := Vector.mem_iff_getElem.mp ha
    rw [Vector.getElem_setIfInBounds]
    split_ifs
    · exact ⟨h.counter.1, inside⟩
    · exact h.stack _ (Vector.getElem_mem low)
  exact { h.withCounter (Int.natCast_nonneg target.val) (by omega) with depth, stack }

theorem concluded (h : m.Consistent) (x : Register) (result : Int) (flag : Bool) :
    (m.concluded x result flag).Consistent :=
  (h.setReg x (Octet.emod result)).setReg 15 (Octet.ofBool flag)

theorem computed (h : m.Consistent) (x y : Register) (how : Arithmetic) :
    (m.computed x y how).Consistent := by
  have hx := h.octet_reg x
  have hy := h.octet_reg y
  cases how with
  | copy => exact h.setReg x hy
  | or => exact h.setReg x (hx.or hy)
  | and => exact h.setReg x (hx.and _)
  | xor => exact h.setReg x (hx.xor hy)
  | add => exact h.concluded x _ _
  | subtract => exact h.concluded x _ _
  | subtractFrom => exact h.concluded x _ _
  | shiftRight =>
    have flagged := h.setReg 15 (Octet.bit (m.reg x))
    exact flagged.setReg x ((flagged.octet_reg x).ediv (by decide))
  | shiftLeft =>
    have flagged := h.setReg 15 (Octet.bit (m.reg x / 128))
    exact flagged.setReg x (Octet.emod _)

theorem drawn (h : m.Consistent) (x y : Register) (height : Nat) :
    (m.drawn x y height).Consistent :=
  (h.setReg 15 (Octet.ofBool _)).redrawn _

theorem withDigits (h : m.Consistent) (value : Int) : (m.withDigits value).Consistent :=
  ((h.setByte _ _).setByte _ _).setByte _ _

theorem saved (h : m.Consistent) (count : Nat) : (m.saved count).Consistent :=
  h.withMemory (by simp [savedMemory])

theorem restored (h : m.Consistent) (count : Nat) : (m.restored count).Consistent := by
  have loaded := h.toNominal.restored count
  exact h.withRegisters loaded.registers loaded.octets

/-- What an instruction leaves is consistent if the counter has moved past it. -/
theorem effect (h : m.Consistent) (advanced : 2 ≤ m.counter ∧ m.counter ≤ 4096) {byte : Int}
    {i : Instruction} (done : m.effect byte i = .ok n) : n.Consistent := by
  obtain ⟨past, inside⟩ := advanced
  cases i with
  | clearScreen => cases done; exact { h with }
  | leave =>
    simp only [Machine.effect] at done
    split_ifs at done with empty
    cases done
    exact h.returned (by have := h.depth; omega)
  | jump target =>
    cases done
    exact h.withCounter (by omega) (by omega)
  | call target =>
    simp only [Machine.effect] at done
    split_ifs at done with full
    cases done
    have room : m.depth ≠ 16 := full
    exact h.called (by have := h.depth; omega) inside target
  | skipIfEquals | skipUnlessEquals | skipIfSame | skipUnlessSame =>
    cases done
    exact h.skippedIf inside _
  | setRegister x constant =>
    cases done
    exact h.setReg x (Octet.ofConstant constant)
  | addConstant x constant =>
    cases done
    exact h.setReg x (Octet.emod _)
  | compute how x y =>
    cases done
    exact h.computed x y how
  | setIndex address =>
    cases done
    exact h.withIndex (by omega) (by omega)
  | jumpBeyond base =>
    cases done
    obtain ⟨low, high⟩ := h.octet_reg 0
    exact h.withCounter (by omega) (by omega)
  | random x mask =>
    cases done
    exact h.setReg x (Octet.and (Octet.ofConstant mask) _)
  | draw x y height =>
    obtain ⟨-, rfl⟩ := withinMemory_eq_ok_iff.mp done
    exact h.drawn x y _
  | skipIfPressed x =>
    obtain ⟨-, rfl⟩ := withKey_eq_ok_iff.mp done
    exact h.skippedIf inside _
  | skipUnlessPressed x =>
    rw [Machine.effect, withKey_eq_ok_iff] at done
    obtain ⟨-, rfl⟩ := done
    exact h.skippedIf inside _
  | readDelay x =>
    cases done
    exact h.setReg x h.delay
  | awaitKey x =>
    simp only [Machine.effect] at done
    split at done <;> cases done
    · rename_i key first
      have key_lt := Keypad.lt_of_first? first
      exact h.setReg x ⟨by omega, by omega⟩
    · exact h.withCounter (by omega) (by omega)
  | setDelay x =>
    cases done
    exact { h with delay := h.octet_reg x }
  | setSound x =>
    cases done
    exact { h with sound := h.octet_reg x }
  | addIndex x =>
    cases done
    exact h.withIndex (by omega) (by omega)
  | pointAtGlyph x =>
    cases done
    obtain ⟨low, high⟩ := h.octet_reg x
    exact h.withIndex (by simp only [glyphSize]; omega) (by simp only [glyphSize]; omega)
  | storeDecimal x =>
    obtain ⟨-, rfl⟩ := withinMemory_eq_ok_iff.mp done
    exact h.withDigits _
  | storeRegisters last =>
    obtain ⟨-, rfl⟩ := withinMemory_eq_ok_iff.mp done
    exact h.saved _
  | loadRegisters last =>
    obtain ⟨-, rfl⟩ := withinMemory_eq_ok_iff.mp done
    exact h.restored _

end Consistent

end Machine

end HexConsole
