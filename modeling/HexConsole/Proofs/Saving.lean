import HexConsole.Proofs.Spans

/-!
# Registers saved in memory

The first registers can be stored in memory from the index on, and loaded from there. Main
statement: each undoes the other. What has been stored is loaded again whatever the registers hold
by then, also in part, and what has just been loaded is already in memory when it is stored.
-/
namespace HexConsole

namespace Machine

variable {m n k : Machine} {last : Register}

/-- How a machine looks after its first registers have been loaded from the index on. -/
structure Loaded (m : Machine) (last : Register) (n : Machine) : Prop where
  low : ∀ z, z ≤ last → n.reg z = (m.byteAt (m.index + z.val)).toNat
  high : ∀ z, last < z → n.reg z = m.reg z
  size : n.registers.size = 16
  others : n = { m with operand := n.operand, registers := n.registers }

/-- Only registers have changed. -/
theorem Loaded.withRegisters {registers : Array Int}
    (low : ∀ z, z ≤ last →
      { m with registers }.reg z = ((m.byteAt (m.index + z.val)).toNat : Int))
    (high : ∀ z, last < z → { m with registers }.reg z = m.reg z) (size : registers.size = 16) :
    m.Loaded last { m with registers } :=
  ⟨low, high, size, rfl⟩

theorem loaded_restored (m : Machine) (last : Register) :
    m.Loaded last (m.restored (last.val + 1)) := by
  apply Loaded.withRegisters
  · intro z low
    have first : z.val < last.val + 1 := Nat.lt_succ_of_le low
    simp only [reg, restoredRegisters, Array.getElem?_ofFn, dif_pos z.isLt, if_pos first,
      Option.getD_some]
  · intro z high
    have later : ¬z.val < last.val + 1 := Nat.not_lt.mpr high
    simp only [reg, restoredRegisters, Array.getElem?_ofFn, dif_pos z.isLt, if_neg later,
      Option.getD_some]
  · simp [restoredRegisters]

/-- Loading does not depend on the operand that the machine has noted. -/
theorem Loaded.of_noted {operand : Int} (loaded : { m with operand }.Loaded last n) :
    m.Loaded last n :=
  { loaded with }

/-- The cell to which a register has been stored. -/
theorem Filled.byteAt_stored (filled : m.Filled (.storeRegisters last) n) {z : Register}
    (low : z ≤ last) : n.byteAt (m.index + z.val) = BitVec.ofInt 8 (m.reg z) := by
  have first : z.val ≤ last.val := low
  have place : (m.index + z.val - m.index).toNat = z.val := by omega
  have same : Fin.ofNat 16 z.val = z := Fin.ext (Nat.mod_eq_of_lt z.isLt)
  have value : m.filling (.storeRegisters last) z.val = m.reg (Fin.ofNat 16 z.val) := rfl
  rw [filled.inside _ (by omega) (by simp only [Instruction.stores]; omega), place, value, same]

/-- Machines with the same bytes have the same memory. -/
theorem memory_eq_of_byteAt (size : n.memory.size = m.memory.size)
    (same : ∀ a, 0 ≤ a → n.byteAt a = m.byteAt a) : n.memory = m.memory := by
  apply Array.ext size
  intro a inside present
  simpa [byteAt, inside, present] using same a (Int.natCast_nonneg a)

/-- A cell that registers are stored to is the cell of one of them. -/
theorem exists_register_of_span {address : Int} (low : m.index ≤ address)
    (high : address < m.index + (last.val + 1 : Nat)) :
    ∃ z : Register, z ≤ last ∧ address = m.index + z.val := by
  refine ⟨⟨(address - m.index).toNat, by omega⟩, ?_, ?_⟩
  · rw [Fin.le_def]
    simp only
    omega
  · simp only
    omega

/-- What has been stored in memory does not change if it is stored where it is already. -/
theorem Filled.memory_eq (filled : m.Filled (.storeRegisters last) n)
    (there : ∀ z, z ≤ last → m.byteAt (m.index + z.val) = BitVec.ofInt 8 (m.reg z)) :
    n.memory = m.memory := by
  apply memory_eq_of_byteAt filled.size
  intro address nonneg
  by_cases within : m.index ≤ address ∧ address < m.index + (last.val + 1 : Nat)
  · obtain ⟨z, low, rfl⟩ := exists_register_of_span within.1 within.2
    rw [filled.byteAt_stored low, there z low]
  · apply filled.outside address nonneg
    simp only [Instruction.stores]
    omega

/-- Stored registers come back. -/
theorem Loaded.reg_of_filled (h : m.Nominal) (filled : m.Filled (.storeRegisters last) n)
    {d l : Machine} (index : d.index = n.index) (memory : d.memory = n.memory) {z v : Register}
    (part : z ≤ last) (loaded : d.Loaded z l) (low : v ≤ z) : l.reg v = m.reg v := by
  have pointed : n.index = m.index := by rw [filled.others]
  have cell : d.byteAt (d.index + v.val) = BitVec.ofInt 8 (m.reg v) := by
    rw [index, pointed, ← filled.byteAt_stored (Fin.le_trans low part)]
    simp only [byteAt, memory]
  obtain ⟨value, held, small⟩ := (h.octet_reg v).exists_nat
  rw [loaded.low v low, cell, held]
  simp [Nat.mod_eq_of_lt small]

/-- Loaded registers are in memory already. -/
theorem Loaded.memory_of_filled (loaded : m.Loaded last n)
    (filled : n.Filled (.storeRegisters last) k) : k.memory = m.memory := by
  have pointed : n.index = m.index := by rw [loaded.others]
  have kept : n.memory = m.memory := by rw [loaded.others]
  rw [← kept]
  apply filled.memory_eq
  intro z low
  rw [loaded.low z low, pointed]
  simp [byteAt, kept]

/-- Stored registers are in memory already. -/
theorem Filled.memory_of_filled (filled : m.Filled (.storeRegisters last) n)
    (again : n.Filled (.storeRegisters last) k) : k.memory = n.memory := by
  have pointed : n.index = m.index := by rw [filled.others]
  have registers : n.registers = m.registers := by rw [filled.others]
  apply again.memory_eq
  intro z low
  rw [pointed, filled.byteAt_stored low]
  simp only [reg, registers]

/-- Registers are loaded whatever they held before. -/
theorem Step.run_loadRegisters_of_fits (memory : m.memory.size = memorySize)
    (registers : m.registers.size = 16) (start : 0 ≤ m.index)
    (fits : m.index + (last.val + 1 : Nat) ≤ memorySize) :
    (Step.loadRegisters last).run m = .ok () (m.restored (last.val + 1)) := by
  rw [run_loadRegisters memory registers start, withinMemory_eq_ok_iff.mpr ⟨.inr fits, rfl⟩]
  rfl

end Machine

namespace Instruction

theorem decode_storeRegisters (last : Register) :
    decode (0xF055 + 0x100 * last.val) = some (.storeRegisters last) := by
  apply decode_of_word <;> simp only [word] <;> omega

theorem decode_loadRegisters (last : Register) :
    decode (0xF065 + 0x100 * last.val) = some (.loadRegisters last) := by
  apply decode_of_word <;> simp only [word] <;> omega

end Instruction

namespace Console

open Machine

variable {σ : Type} [RandomSource σ] {c : Console σ}

theorem process_store (h : c.machine.Nominal) (last : Register)
    (inside : c.machine.index + last.val ≤ 4095) :
    ∃ n, c.process (0xF055 + 0x100 * last.val) = ⟨{ c with machine := n }, none⟩ ∧
      n.operand = 0xF055 + 0x100 * last.val ∧ c.machine.Filled (.storeRegisters last) n ∧
      n.Nominal := by
  have decoded := Instruction.decode_storeRegisters last
  generalize (0xF055 + 0x100 * last.val : Int) = operand at decoded ⊢
  have fits : c.machine.index + (last.val + 1 : Nat) ≤ memorySize := by
    unfold memorySize
    omega
  have done : { c.machine with operand }.effect 0 (.storeRegisters last) =
      .ok ({ c.machine with operand }.saved (last.val + 1)) :=
    withinMemory_eq_ok_iff.mpr ⟨.inr fits, rfl⟩
  exact ⟨_, process_of_ok h decoded rfl done, rfl,
    (filled_saved (h.noting operand) last fits).of_noted, (h.noting operand).saved _⟩

theorem process_load (memory : c.machine.memory.size = memorySize)
    (registers : c.machine.registers.size = 16) (start : 0 ≤ c.machine.index)
    (last : Register) (inside : c.machine.index + last.val ≤ 4095) :
    ∃ n, c.process (0xF065 + 0x100 * last.val) = ⟨{ c with machine := n }, none⟩ ∧
      c.machine.Loaded last n ∧ (c.machine.Nominal → n.Nominal) := by
  have decoded := Instruction.decode_loadRegisters last
  generalize (0xF065 + 0x100 * last.val : Int) = operand at decoded ⊢
  have fits : c.machine.index + (last.val + 1 : Nat) ≤ memorySize := by
    unfold memorySize
    omega
  have ends := Step.run_loadRegisters_of_fits (m := { c.machine with operand }) memory registers
    start fits
  exact ⟨_, process_of_run decoded rfl ends, (loaded_restored _ last).of_noted,
    fun h => (h.noting operand).restored _⟩

/-- What an operand with a span of memory leaves alone, also where memory is too short for it. -/
theorem process_of_span_kept (h : c.machine.Nominal) {operand : Int} {i : Instruction}
    {length : Nat} (decoded : Instruction.decode operand = some i) (spans : i.span? = some length)
    (fixed : i.points = false) :
    let n := (c.process operand).console.machine
    n.index = c.machine.index ∧ n.memory.size = c.machine.memory.size ∧
      ∀ a, 0 ≤ a → (a < c.machine.index ∨ c.machine.index + i.stores ≤ a) →
        n.byteAt a = c.machine.byteAt a := by
  by_cases past : (c.machine.beyond length).Nonempty
  · rw [process_of_beyond h decoded spans past]
    exact ⟨rfl, rfl, fun _ _ _ => rfl⟩
  · obtain ⟨n, done, -⟩ := process_of_within h decoded spans past
    obtain ⟨j, same, -, writes, -⟩ := process_writes h done
    rw [decoded] at same
    cases same
    rw [done]
    exact ⟨writes.index fixed, writes.memory⟩

/-- Storing the first registers and loading them again are inverse to each other, wherever memory
has room for them. Registers that have been stored are loaded as they were then, also only the
first of them, and whatever the machine has done since with anything but its memory and its index;
the other registers stay as they are. Loading registers and then storing them leaves memory as it
was, and storing them twice is storing them once. The index never moves, and no cell is written
but those of the registers. -/
theorem store_load_inverse (h : c.machine.Nominal) (last : Register) :
    let store : Int := 0xF055 + 0x100 * last.val
    let load (z : Register) : Int := 0xF065 + 0x100 * z.val
    let stored := (c.process store).console
    let loaded := (c.process (load last)).console
    (stored.machine.index = c.machine.index ∧ loaded.machine.index = c.machine.index) ∧
    (stored.machine.memory.size = 4096 ∧ ∀ a, 0 ≤ a →
      (a < c.machine.index ∨ c.machine.index + last.val < a) →
        stored.machine.byteAt a = c.machine.byteAt a) ∧
    (c.machine.index + last.val ≤ 4095 →
      (c.process store).failure? = none ∧ (c.process (load last)).failure? = none ∧
      (∀ (d : Console σ) (z : Register), z ≤ last → d.machine.registers.size = 16 →
        d.machine.index = stored.machine.index → d.machine.memory = stored.machine.memory →
        ∃ n, d.process (load z) = ⟨{ d with machine := n }, none⟩ ∧ n.registers.size = 16 ∧
          (∀ v, v ≤ z → n.reg v = c.machine.reg v) ∧ ∀ v, z < v → n.reg v = d.machine.reg v) ∧
      (∃ n, loaded.process store = ⟨{ loaded with machine := n }, none⟩ ∧
        n.memory = c.machine.memory) ∧
      stored.process store = ⟨stored, none⟩) := by
  intro store load stored loaded
  have keeps := process_of_span_kept h (Instruction.decode_storeRegisters last) rfl rfl
  have rests := process_of_span_kept h (Instruction.decode_loadRegisters last) rfl rfl
  refine ⟨⟨keeps.1, rests.1⟩, ⟨keeps.2.1.trans h.memory, ?_⟩, ?_⟩
  · intro a nonneg outside
    apply keeps.2.2 a nonneg
    simp only [Instruction.stores]
    omega
  intro inside
  obtain ⟨n, done, noted, filled, nominal⟩ := process_store h last inside
  obtain ⟨k, ends, fetched, ready⟩ := process_load h.memory h.registers h.index.1 last inside
  have stored_eq : stored = { c with machine := n } := congrArg Outcome.console done
  have loaded_eq : loaded = { c with machine := k } := congrArg Outcome.console ends
  have place : n.index = c.machine.index := by rw [filled.others]
  refine ⟨congrArg Outcome.failure? done, congrArg Outcome.failure? ends, ?_, ?_, ?_⟩
  · rintro d z part size index memory
    rw [stored_eq] at index memory
    have first : z.val ≤ last.val := part
    obtain ⟨l, again, back, -⟩ := process_load (c := d) (by rw [memory]; exact nominal.memory) size
      (by rw [index]; exact nominal.index.1) z (by rw [index, place]; omega)
    exact ⟨l, again, back.size, fun v low => back.reg_of_filled h filled index memory part low,
      back.high⟩
  · have room : k.index + last.val ≤ 4095 := by rw [fetched.others]; exact inside
    obtain ⟨l, again, -, refilled, -⟩ :=
      process_store (c := { c with machine := k }) (ready h) last room
    rw [loaded_eq]
    exact ⟨l, again, fetched.memory_of_filled refilled⟩
  · have room : n.index + last.val ≤ 4095 := by rw [place]; exact inside
    obtain ⟨l, again, renoted, refilled, -⟩ :=
      process_store (c := { c with machine := n }) nominal last room
    have same : l = n := by
      rw [refilled.others, filled.memory_of_filled refilled, renoted, ← noted]
    rw [stored_eq]
    exact again.trans (by rw [same])

/-- Three registers in the last three cells of memory, two of which are loaded into cleared
registers. -/
theorem store_load_inverse_last_cells :
    let c : Console Tape := { assemble ⟨true, true⟩ (Tape.repeating #[]) .debug with
      machine := { Machine.initial with
        index := 4093
        registers := #[7, 255, 3, 9, 0, 0, 0, 0, 0, 0, 0, 0, 0, 0, 0, 0] } }
    (c.machine.Nominal ∧ c.machine.index + 2 ≤ 4095) ∧
      ∃ stored, c.process 0xF255 = ⟨stored, none⟩ ∧ stored.process 0xF255 = ⟨stored, none⟩ ∧
        let d := { stored with
          machine := { stored.machine with registers := Array.replicate 16 0 } }
        ∃ n, d.process 0xF165 = ⟨{ d with machine := n }, none⟩ ∧
          n.reg 0 = 7 ∧ n.reg 1 = 255 ∧ n.reg 2 = 0 := by
  intro c
  have nominal : c.machine.Nominal :=
    { consistent_initial.toNominal with
      index := by decide
      registers := rfl
      octets := by decide }
  have inside : c.machine.index + 2 ≤ 4095 := by decide
  have operand : (0xF055 + 0x100 * (2 : Register).val : Int) = 0xF255 := rfl
  obtain ⟨-, -, undone⟩ := store_load_inverse nominal 2
  rw [operand] at undone
  obtain ⟨done, -, back, -, twice⟩ := undone inside
  -- What the console looks like after the store no longer matters.
  generalize c.process 0xF255 = stored at done back twice
  obtain ⟨n, loaded, -, low, high⟩ := back { stored.console with
    machine := { stored.console.machine with registers := Array.replicate 16 0 } } 1 (by decide)
    rfl rfl rfl
  exact ⟨⟨nominal, inside⟩, stored.console, by rw [← done], twice, n, loaded, low 0 (by decide),
    low 1 (by decide), high 2 (by decide)⟩

end Console

end HexConsole
