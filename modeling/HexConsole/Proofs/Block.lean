import HexConsole.Proofs.Nominal

/-!
# Copying blocks of cells

Where a block lies inside both tables, saving and restoring registers change the cells
of the block and no others, and the tables keep their sizes.
-/
namespace HexConsole

theorem getElem?_splice {α : Type} {cells new : Array α} {start : Nat}
    (fits : start + new.size ≤ cells.size) (k : Nat) :
    (splice cells start (start + new.size : Nat) new)[k]? =
      if start ≤ k ∧ k < start + new.size then new[k - start]? else cells[k]? := by
  have low : min start cells.size = start := by omega
  have high : max start (start + new.size) = start + new.size := by omega
  simp only [splice, gap_ofNat (n := cells.size) (k := start) (by omega), gap_ofNat fits, high]
  by_cases before : k < start
  · have outside : ¬(start ≤ k ∧ k < start + new.size) := by omega
    rw [if_neg outside]
    simp [Array.getElem?_append, low, before]
  by_cases within : k < start + new.size
  · simp [Array.getElem?_append, low, before, within, show start ≤ k by omega,
      show k - start < new.size by omega]
  · have outside : ¬(start ≤ k ∧ k < start + new.size) := by omega
    have back : start + new.size + (k - (start + new.size)) = k := by omega
    rw [if_neg outside]
    simp only [Array.getElem?_append, Array.size_append, Array.size_extract, low, Nat.sub_zero,
      if_neg within, Array.getElem?_extract, back]
    split_ifs with inside
    · rfl
    · rw [Array.getElem?_eq_none]
      omega

theorem slice_ofNat {α : Type} {cells : Array α} {start count : Nat}
    (fits : start + count ≤ cells.size) :
    slice cells start (start + count : Nat) = cells.extract start (start + count) := by
  simp only [slice, gap_ofNat (n := cells.size) (k := start) (by omega), gap_ofNat fits]

namespace Machine

variable {m : Machine}

theorem slice_registers (h : m.Nominal) {count : Nat} (few : count ≤ 16) :
    slice m.registers 0 count = m.registers.extract 0 count := by
  have fits : 0 + count ≤ m.registers.size := by have := h.registers; omega
  simpa using slice_ofNat fits

theorem slice_memory (size : m.memory.size = memorySize) (start : 0 ≤ m.index) {count : Nat}
    (inside : m.index + count ≤ memorySize) :
    slice m.memory m.index (m.index + count) =
      m.memory.extract m.index.toNat (m.index.toNat + count) := by
  obtain ⟨start, index_eq⟩ := Int.eq_ofNat_of_zero_le start
  have fits : start + count ≤ m.memory.size := by rw [size]; omega
  rw [index_eq, ← Int.natCast_add, slice_ofNat fits, Int.toNat_natCast]

theorem octet_of_mem_extract (h : m.Nominal) {count : Nat} {v : Int}
    (member : v ∈ m.registers.extract 0 count) : Octet v := by
  obtain ⟨k, hk, rfl⟩ := Array.mem_extract_iff_getElem.mp member
  exact h.octets _ (Array.getElem_mem _)

theorem all_isByte_extract (h : m.Nominal) (count : Nat) :
    (m.registers.extract 0 count).all Step.isByte = true := by
  rw [Array.all_eq_true_iff_forall_mem]
  intro v member
  exact isByte_iff.mpr (octet_of_mem_extract h member)

/-- Memory with the first registers copied to it, from the index on. -/
def savedMemory (m : Machine) (count : Nat) : Array Byte :=
  Array.ofFn fun a : Fin memorySize =>
    if m.index ≤ a ∧ a < m.index + count then
      BitVec.ofInt 8 (m.reg (Fin.ofNat 16 (a - m.index).toNat))
    else m.byteAt a

def saved (m : Machine) (count : Nat) : Machine := { m with memory := m.savedMemory count }

/-- The registers, the first of them loaded from memory, from the index on. -/
def restoredRegisters (m : Machine) (count : Nat) : Array Int :=
  Array.ofFn fun x : Register =>
    if x.val < count then ((m.byteAt (m.index + x)).toNat : Int) else m.reg x

def restored (m : Machine) (count : Nat) : Machine :=
  { m with registers := m.restoredRegisters count }

theorem splice_savedMemory (h : m.Nominal) {count : Nat} (few : count ≤ 16)
    (inside : m.index + count ≤ memorySize) :
    splice m.memory m.index (m.index + count)
      ((m.registers.extract 0 count).map (BitVec.ofInt 8)) = m.savedMemory count := by
  obtain ⟨start, index_eq⟩ := Int.eq_ofNat_of_zero_le h.index.1
  have size : ((m.registers.extract 0 count).map (BitVec.ofInt 8)).size = count := by
    have := h.registers
    simp only [Array.size_map, Array.size_extract]
    omega
  have fits : start + ((m.registers.extract 0 count).map (BitVec.ofInt 8)).size ≤
      m.memory.size := by
    rw [size, h.memory]
    omega
  apply Array.ext_getElem?
  intro k
  have cell := getElem?_splice fits k
  rw [size] at cell
  rw [index_eq, ← Int.natCast_add, cell, savedMemory, Array.getElem?_ofFn]
  by_cases low : k < memorySize
  · rw [dif_pos low]
    have present : k < m.memory.size := by rw [h.memory]; exact low
    by_cases block : start ≤ k ∧ k < start + count
    · have number : (k - start) % 16 = k - start := Nat.mod_eq_of_lt (by omega)
      have held : k - start < m.registers.size := by have := h.registers; omega
      have difference : ((k : Int) - start).toNat = k - start := by omega
      have within : (start : Int) ≤ k ∧ (k : Int) < start + count := by omega
      rw [if_pos block]
      simp [index_eq, within, reg, Fin.ofNat, difference, number, held,
        show k - start < min count m.registers.size by omega]
    · have without : ¬((start : Int) ≤ k ∧ (k : Int) < start + count) := by omega
      simp only [index_eq, if_neg block, if_neg without]
      simp [byteAt, present]
  · have outside : ¬(start ≤ k ∧ k < start + count) := by omega
    rw [dif_neg low, if_neg outside, Array.getElem?_eq_none]
    rw [h.memory]
    omega

theorem splice_restoredRegisters (memory : m.memory.size = memorySize)
    (registers : m.registers.size = 16) (start : 0 ≤ m.index) {count : Nat} (few : count ≤ 16)
    (inside : m.index + count ≤ memorySize) :
    splice m.registers 0 count
      ((m.memory.extract m.index.toNat (m.index.toNat + count)).map fun b => (b.toNat : Int)) =
        m.restoredRegisters count := by
  obtain ⟨start, index_eq⟩ := Int.eq_ofNat_of_zero_le start
  have fits : start + count ≤ m.memory.size := by rw [memory]; omega
  rw [index_eq, Int.toNat_natCast]
  have size : ((m.memory.extract start (start + count)).map
      fun b => (b.toNat : Int)).size = count := by
    simp only [Array.size_map, Array.size_extract]
    omega
  have room : 0 + ((m.memory.extract start (start + count)).map fun b => (b.toNat : Int)).size ≤
      m.registers.size := by rw [size, registers]; omega
  apply Array.ext_getElem?
  intro k
  have cell := getElem?_splice room k
  rw [size, Nat.zero_add] at cell
  rw [show ((0 : Nat) : Int) = 0 from rfl] at cell
  rw [cell, restoredRegisters, Array.getElem?_ofFn]
  by_cases low : k < 16
  · rw [dif_pos low]
    by_cases block : k < count
    · have present : start + k < m.memory.size := by omega
      have address : ((start : Int) + k).toNat = start + k := by omega
      simp [block, byteAt, index_eq, address, present,
        show k < min (start + count) m.memory.size - start by omega]
    · have held : k < m.registers.size := by rw [registers]; exact low
      simp [block, reg, held]
  · have outside : ¬(0 ≤ k ∧ k < count) := by omega
    rw [dif_neg low, if_neg outside, Array.getElem?_eq_none]
    rw [registers]
    omega

theorem Nominal.saved (h : m.Nominal) (count : Nat) : (m.saved count).Nominal :=
  h.withMemory (by simp [savedMemory])

/-- Loaded registers are bytes, as all that is loaded comes from memory. -/
theorem Nominal.restored (h : m.Nominal) (count : Nat) : (m.restored count).Nominal := by
  apply h.withRegisters
  · simp [restoredRegisters]
  · intro v hv
    obtain ⟨x, rfl⟩ := Array.mem_ofFn.mp hv
    split_ifs
    · exact Octet.ofByte _
    · exact h.octet_reg x

namespace Step

@[simp] theorem run_touchAll (m : Machine) (ts : List Touch) : (touchAll ts).run m = .ok () m := by
  induction ts with
  | nil => rfl
  | cons t rest ih => exact ih

theorem run_saveRegisters (h : m.Nominal) {count : Nat} (few : count ≤ 16)
    (inside : m.index + count ≤ memorySize) :
    (saveRegisters m.index count).run m = .ok () (m.saved count) := by
  simp only [saveRegisters, run_bind, run_get, run_touchAll, run_set, slice_registers h few,
    all_isByte_extract h, splice_savedMemory h few inside, Bool.not_true, Bool.false_eq_true,
    if_false, saved]

/-- Registers can be loaded whatever they held before. -/
theorem run_restoreRegisters (memory : m.memory.size = memorySize)
    (registers : m.registers.size = 16) (start : 0 ≤ m.index) {count : Nat} (few : count ≤ 16)
    (inside : m.index + count ≤ memorySize) :
    (restoreRegisters m.index count).run m = .ok () (m.restored count) := by
  simp only [restoreRegisters, run_bind, run_get, run_touchAll, run_set,
    slice_memory memory start inside,
    splice_restoredRegisters memory registers start few inside, restored]

end Step

end Machine

end HexConsole
