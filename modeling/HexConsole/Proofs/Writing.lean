import HexConsole.Proofs.Drawing
import HexConsole.Proofs.Encoding
import HexConsole.Proofs.Footprint

/-!
# What instructions write

The cells that an instruction may write, table by table, and the parts of a machine that it may
move. Main statement: an operand that is carried out changes nothing but what its instruction
may write, however its registers coincide, and takes a random byte exactly if it asks for one.
-/
namespace HexConsole

/-- Whether an arithmetic writes the flag besides its result. -/
def Arithmetic.flags : Arithmetic → Bool
  | copy | or | and | xor => false
  | add | subtract | shiftRight | subtractFrom | shiftLeft => true

namespace Instruction

/-- How many memory cells, from the index on, an instruction may write. -/
def stores : Instruction → Nat
  | storeDecimal _ => 3
  | storeRegisters last => last.val + 1
  | _ => 0

/-- Whether an instruction may write a register. -/
def fills (z : Register) : Instruction → Bool
  | setRegister x _ => z == x
  | addConstant x _ => z == x
  | compute how x _ => z == x || how.flags && z == 15
  | random x _ => z == x
  | draw _ _ _ => z == 15
  | readDelay x => z == x
  | awaitKey x => z == x
  | loadRegisters last => decide (z ≤ last)
  | _ => false

/-- Whether an instruction may write the index. -/
def points : Instruction → Bool
  | setIndex _ => true
  | addIndex _ => true
  | pointAtGlyph _ => true
  | _ => false

/-- Whether an instruction may send the counter anywhere. -/
def jumps : Instruction → Bool
  | leave => true
  | jump _ => true
  | call _ => true
  | jumpBeyond _ => true
  | _ => false

/-- The distance by which an instruction moves the counter if it moves it at all. -/
def stride : Instruction → Int
  | skipIfEquals _ _ => 2
  | skipUnlessEquals _ _ => 2
  | skipIfSame _ _ => 2
  | skipUnlessSame _ _ => 2
  | skipIfPressed _ => 2
  | skipUnlessPressed _ => 2
  | awaitKey _ => -2
  | _ => 0

/-- Whether an instruction writes the next free level of the stack. -/
def pushes : Instruction → Bool
  | call _ => true
  | _ => false

def setsDelay : Instruction → Bool
  | setDelay _ => true
  | _ => false

def setsSound : Instruction → Bool
  | setSound _ => true
  | _ => false

end Instruction

namespace Machine

variable {m n : Machine}

/-- What an instruction may have written on the way from one machine to another. -/
structure Writes (i : Instruction) (m n : Machine) : Prop where
  memory : n.memory.size = m.memory.size ∧ ∀ address, 0 ≤ address →
      (address < m.index ∨ m.index + i.stores ≤ address) → n.byteAt address = m.byteAt address := by
    exact ⟨rfl, fun _ _ _ => rfl⟩
  registers : n.registers.size = m.registers.size ∧
      ∀ z, i.fills z = false → n.reg z = m.reg z := by
    exact ⟨rfl, fun _ _ => rfl⟩
  pixels : i.paints = false → n.frame = m.frame := by intro _; rfl
  redraw : n.redraw = (i.paints || m.redraw) := by rfl
  index : i.points = false → n.index = m.index := by intro _; rfl
  depth : i.nests = false → n.depth = m.depth := by intro _; rfl
  stack : ∀ level : Nat, (i.pushes = true → (level : Int) ≠ m.depth) →
      n.stack[level]? = m.stack[level]? := by
    intro _ _; rfl
  delay : i.setsDelay = false → n.delay = m.delay := by intro _; rfl
  sound : i.setsSound = false → n.sound = m.sound := by intro _; rfl
  counter : i.jumps = false → n.counter = m.counter ∨ n.counter = m.counter + i.stride := by
    exact fun _ => .inl rfl
  others : n.keys = m.keys ∧ n.tone = m.tone ∧ n.fault = m.fault ∧ n.operand = m.operand ∧
      n.operandAddress = m.operandAddress := by
    exact ⟨rfl, rfl, rfl, rfl, rfl⟩

namespace Writes

/-- Only memory is written. -/
theorem withMemory {i : Instruction} (plain : i.paints = false) {memory : Array Byte}
    (size : memory.size = m.memory.size)
    (kept : ∀ address, 0 ≤ address → (address < m.index ∨ m.index + i.stores ≤ address) →
      { m with memory }.byteAt address = m.byteAt address) : Writes i m { m with memory } where
  memory := ⟨size, kept⟩
  redraw := by rw [plain]; rfl

/-- Only registers are written. -/
theorem withRegisters {i : Instruction} (plain : i.paints = false) {registers : Array Int}
    (size : registers.size = m.registers.size)
    (kept : ∀ z, i.fills z = false → { m with registers }.reg z = m.reg z) :
    Writes i m { m with registers } where
  registers := ⟨size, kept⟩
  redraw := by rw [plain]; rfl

/-- Only the counter moves. -/
theorem skippedIf {i : Instruction} (plain : i.paints = false) (far : i.stride = 2) (m : Machine)
    (condition : Bool) : Writes i m (m.skippedIf condition) := by
  cases condition with
  | false => exact { redraw := by rw [plain]; rfl }
  | true =>
    exact {
      redraw := by rw [plain]; rfl
      counter := fun _ => .inr (by rw [far]; rfl) }

theorem setReg {i : Instruction} (plain : i.paints = false) (h : m.registers.size = 16)
    {x : Register} (filled : i.fills x = true) (value : Int) : Writes i m (m.setReg x value) := by
  apply withRegisters plain (size_registers_setReg m x value)
  intro z kept
  have other : x ≠ z := by
    rintro rfl
    rw [filled] at kept
    cases kept
  exact (reg_setReg h x z value).trans (if_neg other)

/-- One register is set after the other. -/
theorem setReg_setReg {i : Instruction} (plain : i.paints = false) (h : m.registers.size = 16)
    {x y : Register} (first : i.fills x = true) (second : i.fills y = true) (a b : Int) :
    Writes i m ((m.setReg x a).setReg y b) := by
  have once := setReg plain h first a
  have twice := setReg plain ((size_registers_setReg m x a).trans h) second b
  apply withRegisters plain (twice.registers.1.trans once.registers.1)
  intro z kept
  exact (twice.registers.2 z kept).trans (once.registers.2 z kept)

theorem computed (h : m.registers.size = 16) (how : Arithmetic) (x y : Register) :
    Writes (.compute how x y) m (m.computed x y how) := by
  have result : (Instruction.compute how x y).fills x = true := by simp [Instruction.fills]
  have flag (flags : how.flags = true) : (Instruction.compute how x y).fills 15 = true := by
    simp [Instruction.fills, flags]
  cases how with
  | copy | or | and | xor => exact setReg rfl h result _
  | add | subtract | subtractFrom => exact setReg_setReg rfl h result (flag rfl) _ _
  | shiftRight | shiftLeft => exact setReg_setReg rfl h (flag rfl) result _ _

theorem drawn (h : m.registers.size = 16) (x y : Register) (height : Fin 16) :
    Writes (.draw x y height) m (m.drawn x y height.val) where
  registers := by
    obtain ⟨size, others⟩ := (spriteDrawn_drawn h x y height.val).registers
    refine ⟨size, ?_⟩
    intro z kept
    apply others z
    rintro rfl
    cases kept
  pixels plain := by cases plain

theorem byteAt_setByte_of_ne {address other : Int} (different : address.toNat ≠ other.toNat)
    (value : Int) : (m.setByte address value).byteAt other = m.byteAt other := by
  simp only [byteAt, setByte, Array.getElem?_setIfInBounds_ne different]

theorem withDigits (x : Register) (start : 0 ≤ m.index) (value : Int) :
    Writes (.storeDecimal x) m (m.withDigits value) := by
  apply withMemory rfl
  · simp only [setByte, Array.size_setIfInBounds]
  · intro address low outside
    simp only [Instruction.stores] at outside
    change (m.withDigits value).byteAt address = m.byteAt address
    rw [Machine.withDigits, byteAt_setByte_of_ne (by omega), byteAt_setByte_of_ne (by omega),
      byteAt_setByte_of_ne (by omega)]

theorem saved (h : m.memory.size = memorySize) (last : Register) :
    Writes (.storeRegisters last) m (m.saved (last.val + 1)) := by
  apply withMemory rfl
  · rw [savedMemory, Array.size_ofFn, h]
  · intro address low outside
    obtain ⟨a, rfl⟩ := Int.eq_ofNat_of_zero_le low
    have kept : ¬(m.index ≤ a ∧ (a : Int) < m.index + (last.val + 1 : Nat)) := by
      simp only [Instruction.stores] at outside
      omega
    by_cases inside : a < memorySize
    · simp only [byteAt, savedMemory, Array.getElem?_ofFn, Int.toNat_natCast, dif_pos inside,
        if_neg kept, Option.getD_some]
    · simp [byteAt, savedMemory, inside, h]

theorem restored (h : m.registers.size = 16) (last : Register) :
    Writes (.loadRegisters last) m (m.restored (last.val + 1)) := by
  apply withRegisters rfl
  · rw [restoredRegisters, Array.size_ofFn, h]
  · intro z kept
    have high : ¬z.val < last.val + 1 := by
      simp only [Instruction.fills, decide_eq_false_iff_not, Fin.le_def] at kept
      omega
    simp only [reg, restoredRegisters, Array.getElem?_ofFn, dif_pos z.isLt, if_neg high,
      Option.getD_some]

theorem called (target : Fin 4096) (h : 0 ≤ m.depth) :
    Writes (.call target) m
      { m.setReturn m.depth m.counter with depth := m.depth + 1, counter := target.val } where
  depth flat := by cases flat
  stack level kept := by
    have other : m.depth.toNat ≠ level := by
      have different := kept rfl
      omega
    exact Vector.getElem?_setIfInBounds_ne other
  counter flat := by cases flat

end Writes

/-- What an instruction that is carried out may have written. -/
theorem effect_writes (h : m.Nominal) {byte : Int} {i : Instruction}
    (done : m.effect byte i = .ok n) : Writes i m n := by
  have size := h.registers
  cases i with
  | clearScreen =>
    cases done
    exact { pixels := by rintro ⟨⟩ }
  | leave =>
    simp only [effect] at done
    split_ifs at done
    cases done
    exact { depth := by rintro ⟨⟩, counter := by rintro ⟨⟩ }
  | call target =>
    simp only [effect] at done
    split_ifs at done
    cases done
    exact .called target h.depth.1
  | jump | jumpBeyond =>
    cases done
    exact { counter := by rintro ⟨⟩ }
  | skipIfEquals | skipUnlessEquals | skipIfSame | skipUnlessSame =>
    cases done
    exact .skippedIf rfl rfl m _
  | skipIfPressed x =>
    obtain ⟨-, rfl⟩ := withKey_eq_ok_iff.mp done
    exact .skippedIf rfl rfl m _
  | skipUnlessPressed x =>
    rw [effect, withKey_eq_ok_iff] at done
    obtain ⟨-, rfl⟩ := done
    exact .skippedIf rfl rfl m _
  | setRegister x | addConstant x | random x | readDelay x =>
    cases done
    exact .setReg rfl size (by simp [Instruction.fills]) _
  | compute how x y =>
    cases done
    exact .computed size how x y
  | draw x y height =>
    obtain ⟨-, rfl⟩ := withinMemory_eq_ok_iff.mp done
    exact .drawn size x y height
  | awaitKey x =>
    simp only [effect] at done
    split at done <;> cases done
    · exact .setReg rfl size (by simp [Instruction.fills]) _
    · exact { counter := fun _ => .inr rfl }
  | setIndex | addIndex | pointAtGlyph =>
    cases done
    exact { index := by rintro ⟨⟩ }
  | setDelay x =>
    cases done
    exact { delay := by rintro ⟨⟩ }
  | setSound x =>
    cases done
    exact { sound := by rintro ⟨⟩ }
  | storeDecimal x =>
    obtain ⟨-, rfl⟩ := withinMemory_eq_ok_iff.mp done
    exact .withDigits x h.index.1 _
  | storeRegisters last =>
    obtain ⟨-, rfl⟩ := withinMemory_eq_ok_iff.mp done
    exact .saved h.memory last
  | loadRegisters last =>
    obtain ⟨-, rfl⟩ := withinMemory_eq_ok_iff.mp done
    exact .restored size last

end Machine

namespace Console

open Machine

variable {σ : Type} [RandomSource σ] {c d : Console σ}

/-- A random byte is taken for an instruction that asks for one, and only then. -/
theorem supply_of_decode {operand : Int} {i : Instruction}
    (decoded : Instruction.decode operand = some i) (c : Console σ) :
    (c.supply operand).2 = { c with
      source := if i.drawsByte then (RandomSource.draw c.source).2 else c.source
      drawn := c.drawn + if i.drawsByte then 1 else 0 } := by
  unfold supply
  rw [decoded, Option.any_some]
  split_ifs <;> rfl

/-- An operand that a machine in its ranges carries out is the written form of an instruction,
writes what this instruction may write, and takes as many random bytes as it asks for. -/
theorem process_writes (h : c.machine.Nominal) {operand : Int}
    (done : c.process operand = ⟨d, none⟩) :
    ∃ i : Instruction, Instruction.decode operand = some i ∧ operand % 65536 = i.word ∧
      Writes i { c.machine with operand } d.machine ∧
      d = { c with
        machine := d.machine
        source := if i.drawsByte then (RandomSource.draw c.source).2 else c.source
        drawn := c.drawn + if i.drawsByte then 1 else 0 } := by
  rw [process_eq h, attempt, obeyed] at done
  cases decoded : Instruction.decode operand with
  | none =>
    rw [decoded] at done
    cases done
  | some i =>
    rw [decoded, supply_of_decode decoded] at done
    simp only at done
    split at done <;> cases done
    rename_i n ends
    exact ⟨i, rfl, Instruction.word_of_decode decoded, effect_writes (h.noting operand) ends, rfl⟩

/-- The digits of a byte go to three cells of memory, and to nothing else. -/
theorem process_writes_digits :
    let c := (assemble ⟨true, true⟩ (Tape.repeating #[]) .debug).reset
    ∃ d, (c.machine.Nominal ∧ c.process 0xF233 = ⟨d, none⟩) ∧
      (∀ address, 3 ≤ address → d.machine.byteAt address = c.machine.byteAt address) ∧
      (∀ z, d.machine.reg z = c.machine.reg z) ∧ d.drawn = 0 := by
  intro c
  have nominal : c.machine.Nominal := (consistent_reset _).toNominal
  have decoded : Instruction.decode 0xF233 = some (.storeDecimal 2) := by decide
  obtain ⟨n, ends⟩ : ∃ n, c.attempt 0xF233 = .ok n := by
    simp only [attempt, obeyed, decoded, effect]
    exact ⟨_, withinMemory_eq_ok_iff.mpr ⟨.inr (by decide), rfl⟩⟩
  have done : c.process 0xF233 = ⟨{ (c.supply 0xF233).2 with machine := n }, none⟩ := by
    rw [process_eq nominal, ends]
  obtain ⟨i, same, -, writes, frame⟩ := process_writes nominal done
  rw [decoded] at same
  cases same
  refine ⟨_, ⟨nominal, done⟩, ?_, fun z => writes.registers.2 z rfl, ?_⟩
  · intro address far
    exact writes.memory.2 address (by omega) (.inr far)
  · rw [frame]
    rfl

end Console

end HexConsole
