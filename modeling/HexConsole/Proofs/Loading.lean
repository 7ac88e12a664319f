import HexConsole.Proofs.Footprint

/-!
# Loaded programs

A program that fits is found in memory from the program start on, byte by byte, and the cells
around it keep what they held. A program that is written as operands, high bytes first, is read
back as these operands.
-/
namespace HexConsole

/-- The bytes of operands, each with its high byte first. -/
def bigEndian (words : List (BitVec 16)) : List Byte :=
  words.flatMap fun w => [w.extractLsb' 8 8, w.extractLsb' 0 8]

@[simp] theorem length_bigEndian (words : List (BitVec 16)) :
    (bigEndian words).length = 2 * words.length := by
  induction words with
  | nil => rfl
  | cons w rest ih =>
    simp only [bigEndian, List.flatMap_cons, List.length_append, List.length_cons,
      List.length_nil] at ih ⊢
    omega

theorem getElem?_bigEndian (words : List (BitVec 16)) (k : Nat) :
    (bigEndian words)[2 * k]? = words[k]?.map (·.extractLsb' 8 8) ∧
      (bigEndian words)[2 * k + 1]? = words[k]?.map (·.extractLsb' 0 8) := by
  induction words generalizing k with
  | nil => exact ⟨rfl, rfl⟩
  | cons w rest ih =>
    cases k with
    | zero => exact ⟨rfl, rfl⟩
    | succ k =>
      obtain ⟨high, low⟩ := ih k
      exact ⟨high, low⟩

theorem toNat_highLow (w : BitVec 16) :
    ((w.extractLsb' 8 8).toNat : Int) * 256 + ((w.extractLsb' 0 8).toNat : Int) = w.toNat := by
  simp only [BitVec.extractLsb'_toNat, Nat.shiftRight_eq_div_pow]
  omega

namespace Machine

variable {m : Machine}

/-- A machine with a program copied to the program start. -/
def loaded (m : Machine) (rom : List Byte) : Machine :=
  { m with memory := splice m.memory programStart (programStart + rom.length) rom.toArray }

theorem getElem?_glyphMemory (k : Nat) :
    glyphMemory[k]? = if k < 80 then glyphs[k]? else if k < 4096 then some 0 else none := by
  have size : glyphs.size = 80 := rfl
  unfold glyphMemory memorySize
  rw [Array.getElem?_append, size, Array.getElem?_replicate]
  by_cases glyph : k < 80
  · rw [if_pos glyph, if_pos glyph]
  · have offset : k - 80 < 4096 - 80 ↔ k < 4096 := by omega
    simp only [if_neg glyph, offset]

theorem load_of_fits {rom : List Byte} (fits : rom.length ≤ programSpace) :
    m.load rom = .ok (m.loaded rom) := by
  have granted : refusal? rom.length = none := if_neg (by omega)
  simp only [load, granted, loaded]

section

variable (size : m.memory.size = memorySize) {rom : List Byte} (fits : rom.length ≤ programSpace)

include size fits

theorem programStart_add_le : programStart + rom.toArray.size ≤ m.memory.size := by
  rw [size, List.size_toArray]
  unfold programSpace programStart memorySize at *
  omega

theorem size_loaded : (m.loaded rom).memory.size = memorySize := by
  have same := size_splice (programStart_add_le size fits)
  rw [List.size_toArray] at same
  exact same.trans size

/-- The cells of a loaded program and the cells around it. -/
theorem getElem?_loaded (k : Nat) :
    (m.loaded rom).memory[k]? =
      if programStart ≤ k ∧ k < programStart + rom.length then rom[k - programStart]?
      else m.memory[k]? := by
  have cell := getElem?_splice (programStart_add_le size fits) k
  rw [List.size_toArray, Int.natCast_add] at cell
  exact cell.trans (by simp)

theorem byteAt_loaded {address : Int} (low : 0 ≤ address) :
    (m.loaded rom).byteAt address =
      if programStart ≤ address ∧ address < programStart + rom.length then
        rom[(address - programStart).toNat]?.getD 0
      else m.byteAt address := by
  obtain ⟨k, rfl⟩ := Int.eq_ofNat_of_zero_le low
  have offset : ((k : Int) - programStart).toNat = k - programStart := by omega
  have same : (programStart ≤ k ∧ k < programStart + rom.length) ↔
      ((programStart : Int) ≤ k ∧ (k : Int) < programStart + rom.length) := by omega
  simp only [byteAt, Int.toNat_natCast, getElem?_loaded size fits, same, offset]
  split_ifs <;> rfl

end

/-- The words of a loaded program. -/
theorem wordAt_loaded (size : m.memory.size = memorySize) {rom : List Byte}
    (fits : rom.length ≤ programSpace) {k : Nat} (inside : k + 1 < rom.length) :
    (m.loaded rom).wordAt (programStart + k) =
      (rom[k].toNat : Int) * 256 + (rom[k + 1].toNat : Int) := by
  have offset : ((programStart : Int) + k - programStart).toNat = k := by omega
  have next : ((programStart : Int) + k + 1 - programStart).toNat = k + 1 := by omega
  unfold wordAt
  rw [byteAt_loaded size fits (by omega), byteAt_loaded size fits (by omega),
    if_pos (by omega), if_pos (by omega), offset, next]
  simp [show k < rom.length by omega, inside]

theorem wordAt_loaded_bigEndian (size : m.memory.size = memorySize) {words : List (BitVec 16)}
    (fits : 2 * words.length ≤ programSpace) {k : Nat} (inside : k < words.length) :
    (m.loaded (bigEndian words)).wordAt (programStart + 2 * k) = words[k].toNat := by
  obtain ⟨high, low⟩ := getElem?_bigEndian words k
  rw [List.getElem?_eq_getElem inside, Option.map_some] at high low
  obtain ⟨highInside, high⟩ := List.getElem?_eq_some_iff.mp high
  obtain ⟨lowInside, low⟩ := List.getElem?_eq_some_iff.mp low
  have word := wordAt_loaded size (by simpa using fits) lowInside
  rw [high, low, toNat_highLow] at word
  simpa using word

end Machine

namespace Console

open Machine

variable {σ : Type} {c : Console σ}

theorem load_of_fits {rom : List Byte} (fits : rom.length ≤ programSpace) :
    c.load rom =
      ⟨{ c with machine := c.machine.loaded rom }.note (.loaded rom.length), none⟩ := by
  simp only [load, Machine.load_of_fits fits]

theorem nextWord_loaded {rom : List Byte} (fits : rom.length ≤ programSpace)
    (memory : c.machine.memory = (initial.loaded rom).memory) {k : Nat}
    (counter : c.machine.counter = programStart + k) (inside : k + 1 < rom.length) :
    c.nextWord = (rom[k].toNat : Int) * 256 + (rom[k + 1].toNat : Int) := by
  have held := wordAt_loaded (m := initial) size_glyphMemory fits inside
  simp only [wordAt, byteAt] at held
  simp only [nextWord, wordAt, byteAt, counter, memory, held]

/-- A program that has not been written over is executed word by word. -/
theorem executing_loaded {rom : List Byte} (fits : rom.length ≤ programSpace)
    (h : c.machine.Nominal) (memory : c.machine.memory = (initial.loaded rom).memory)
    (running : c.machine.fault = none) {k : Nat} (counter : c.machine.counter = programStart + k)
    (inside : k + 1 < rom.length) {i : Instruction}
    (decoded : Instruction.decode ((rom[k].toNat : Int) * 256 + (rom[k + 1].toNat : Int)) =
      some i) : c.executing = some i := by
  have word := nextWord_loaded fits memory counter inside
  have low : c.machine.counter ≤ 4094 := by
    unfold programSpace at fits
    unfold programStart memorySize at *
    omega
  exact (executing_eq_some_iff h).mpr ⟨running, low, word ▸ decoded⟩

theorem machine_reset_load (c : Console σ) {rom : List Byte} (fits : rom.length ≤ programSpace) :
    (c.reset.load rom).console.machine = initial.loaded rom := by
  rw [load_of_fits fits]
  exact congrArg (Machine.loaded · rom) (machine_reset c)

/-- A machine that has just got its program shows nothing, and asks for nothing. -/
theorem screen_reset_load (c : Console σ) (rom : List Byte) :
    (c.reset.load rom).console.machine.frame = .blank ∧
      (c.reset.load rom).console.machine.redraw = false := by
  simp only [load, Machine.load]
  cases refusal? rom.length <;>
    exact ⟨congrArg Machine.frame (machine_reset c), congrArg Machine.redraw (machine_reset c)⟩

theorem wired_reset (c : Console σ) : c.reset.source = c.source ∧ c.reset.wiring = c.wiring := by
  cases c
  exact ⟨rfl, rfl⟩

theorem wired_load (c : Console σ) (rom : List Byte) :
    (c.load rom).console.source = c.source ∧ (c.load rom).console.wiring = c.wiring := by
  simp only [load, Machine.load]
  cases refusal? rom.length <;> exact ⟨rfl, rfl⟩

/-- Neither a reset nor a program changes what the machine is wired to. -/
theorem wired_reset_load (c : Console σ) (rom : List Byte) :
    (c.reset.load rom).console.source = c.source ∧
      (c.reset.load rom).console.wiring = c.wiring := by
  obtain ⟨source, wiring⟩ := wired_load c.reset rom
  rw [source, wiring]
  exact wired_reset c

/-- A sprite whose rows lie in memory. -/
theorem result_draw [RandomSource σ] {x y : Register} {height : Fin 16}
    (inside : c.machine.index + height.val ≤ memorySize) :
    c.result (.draw x y height) = .ok (c.machine.fetched.drawn x y height.val) :=
  if_pos (.inr inside)

/-- A sprite whose rows do not lie in memory. -/
theorem result_draw_of_outside [RandomSource σ] {x y : Register} {height : Fin 16}
    (rows : height.val ≠ 0) (outside : memorySize < c.machine.index + height.val) :
    c.result (.draw x y height) = .error (.outOfBounds (max c.machine.index memorySize)
      (c.machine.wordAt c.machine.counter) c.machine.counter "memory") := by
  refine if_neg fun allowed => ?_
  obtain none | inside := allowed
  · exact rows none
  · exact absurd outside (Int.not_lt.mpr inside)

/-! ## The way through a program -/

/-- A console that runs a program that has not been written over, and is about to execute the word
at some place of it. -/
structure At (rom : List Byte) (k : Nat) (c : Console σ) : Prop where
  consistent : c.machine.Consistent
  memory : c.machine.memory = (initial.loaded rom).memory
  running : c.machine.fault = none
  counter : c.machine.counter = programStart + k

namespace At

variable {rom : List Byte} {k : Nat}

theorem executing (h : At rom k c) (fits : rom.length ≤ programSpace) (inside : k + 1 < rom.length)
    {i : Instruction} (decoded : Instruction.decode
      ((rom[k].toNat : Int) * 256 + (rom[k + 1].toNat : Int)) = some i) : c.executing = some i :=
  executing_loaded fits h.consistent.toNominal h.memory h.running h.counter inside decoded

theorem fetch (h : At rom k c) (fits : rom.length ≤ programSpace) (inside : k + 1 < rom.length) :
    c.machine.fetch = .ok ((rom[k].toNat : Int) * 256 + (rom[k + 1].toNat : Int)) := by
  have word := nextWord_loaded fits h.memory h.counter inside
  have low : ¬4094 < c.machine.counter := by
    rw [h.counter]
    unfold programSpace at fits
    unfold programStart memorySize at *
    omega
  rw [fetch_eq h.consistent.toNominal, if_neg low]
  exact congrArg Except.ok word

/-- The place in a program depends on memory, fault and counter. -/
theorem congr {d : Console σ} (h : At rom k c) (consistent : d.machine.Consistent)
    (memory : d.machine.memory = c.machine.memory) (fault : d.machine.fault = c.machine.fault)
    (counter : d.machine.counter = c.machine.counter) : At rom k d where
  consistent := consistent
  memory := memory.trans h.memory
  running := fault.trans h.running
  counter := counter.trans h.counter

theorem tick (h : At rom k c) : At rom k c.tick := by
  refine h.congr ?_ ?_ ?_ ?_ <;> rw [machine_tick c]
  · exact h.consistent.tick
  · rfl
  · rfl
  · rfl

/-- No program covers the shape of the digit zero. -/
theorem byteAt_zero (h : At rom k c) (fits : rom.length ≤ programSpace) :
    c.machine.byteAt 0 = 0xF0 := by
  have loaded := byteAt_loaded (m := initial) size_glyphMemory fits (Int.le_refl 0)
  have before : ¬((programStart : Int) ≤ 0 ∧ (0 : Int) < programStart + rom.length) := by
    unfold programStart
    omega
  rw [if_neg before] at loaded
  have first : initial.memory[(0 : Int).toNat]? = some 0xF0 := getElem?_glyphMemory 0
  simp only [byteAt, h.memory] at loaded ⊢
  rw [loaded, first]
  rfl

variable [RandomSource σ]

/-- An instruction that neither writes memory nor moves the counter leads to the next word. -/
theorem next (h : At rom k c) {i : Instruction} (executing : c.executing = some i) {n : Machine}
    (done : c.result i = .ok n)
    (plain : n.memory = c.machine.memory ∧ n.fault = c.machine.fault ∧
      n.counter = c.machine.counter + 2) :
    c.executed = some i ∧ At rom (k + 2) c.cycle.console := by
  obtain ⟨memory, fault, counter⟩ := plain
  obtain ⟨executed, machine⟩ := executed_of_ok h.consistent.toNominal executing done
  refine ⟨executed, consistent_cycle h.consistent, ?_, ?_, ?_⟩
  · rw [machine]
    exact memory.trans h.memory
  · rw [machine]
    exact fault.trans h.running
  · rw [machine]
    simp only [counter, h.counter]
    omega

theorem setRegister (h : At rom k c) {x : Register} {constant : Fin 256}
    (executing : c.executing = some (.setRegister x constant)) :
    c.executed = some (.setRegister x constant) ∧ At rom (k + 2) c.cycle.console ∧
      c.cycle.console.machine.reg x = constant.val := by
  have done : c.result (.setRegister x constant) =
      .ok (c.machine.fetched.setReg x constant.val) := rfl
  obtain ⟨executed, later⟩ := h.next executing done ⟨rfl, rfl, rfl⟩
  refine ⟨executed, later, ?_⟩
  rw [(executed_of_ok h.consistent.toNominal executing done).2]
  exact (reg_setReg h.consistent.registers x x _).trans (if_pos rfl)

theorem setIndex (h : At rom k c) {address : Fin 4096}
    (executing : c.executing = some (.setIndex address)) :
    c.executed = some (.setIndex address) ∧ At rom (k + 2) c.cycle.console ∧
      c.cycle.console.machine.index = address.val ∧
      c.cycle.console.machine.registers = c.machine.registers := by
  obtain ⟨executed, later⟩ := h.next executing rfl ⟨rfl, rfl, rfl⟩
  refine ⟨executed, later, ?_⟩
  rw [(executed_of_ok h.consistent.toNominal executing rfl).2]
  exact ⟨rfl, rfl⟩

theorem setSound (h : At rom k c) {x : Register} (executing : c.executing = some (.setSound x)) :
    c.executed = some (.setSound x) ∧ At rom (k + 2) c.cycle.console :=
  h.next executing rfl ⟨rfl, rfl, rfl⟩

end At

/-- A console that is on its way through a program and would draw in the top left corner. -/
structure Cornered (rom : List Byte) (k : Nat) (c : Console σ) : Prop extends At rom k c where
  place : c.machine.index = 0
  corner : c.machine.reg 0 = 0

namespace Cornered

variable {rom : List Byte} {k : Nat}

/-- The digit zero has a point in its own top left corner. -/
theorem shows_drawn (h : Cornered rom k c) (fits : rom.length ≤ programSpace) :
    (c.machine.drawn 0 0 5).frame.shows 0 0 = !c.machine.frame.shows 0 0 := by
  have frame : (c.machine.drawn 0 0 5).frame =
      c.machine.frame.inverted (c.machine.sprite 0 0 0 5) := by
    simp only [Machine.drawn, h.corner, h.place]
  have on : c.machine.frame.inBounds 0 0 = true :=
    Frame.inBounds_iff.mpr ⟨by decide, by decide⟩
  rw [frame, Frame.shows_inverted _ _ on]
  simp [sprite, h.byteAt_zero fits]

/-- Drawing the digit asks for a redraw, inverts the first point and leads to the next word. -/
theorem draw [RandomSource σ] (h : Cornered rom k c) (fits : rom.length ≤ programSpace)
    (executing : c.executing = some (.draw 0 0 5)) :
    c.executed = some (.draw 0 0 5) ∧ Cornered rom (k + 2) c.cycle.console ∧
      c.cycle.console.machine.redraw = true ∧
      c.cycle.console.machine.frame.shows 0 0 = !c.machine.frame.shows 0 0 := by
  have rows : c.machine.index + (5 : Fin 16).val ≤ memorySize := by
    rw [h.place]
    decide
  have done : c.result (.draw 0 0 5) = .ok (c.machine.fetched.drawn 0 0 5) := result_draw rows
  obtain ⟨executed, later⟩ := h.next executing done ⟨rfl, rfl, rfl⟩
  have machine := (executed_of_ok h.consistent.toNominal executing done).2
  refine ⟨executed, ⟨later, ?_, ?_⟩, ?_, ?_⟩ <;> rw [machine]
  · exact h.place
  · exact (reg_drawn h.consistent.registers 0 0 0 5).trans h.corner
  · rfl
  · exact h.shows_drawn fits

end Cornered

variable [RandomSource σ]

theorem consistent_reset_load (c : Console σ) (rom : List Byte) :
    (c.reset.load rom).console.machine.Consistent := by
  have fresh : c.reset.machine.Consistent := consistent_reset c
  have ordinary : (Operation.load rom).ordinary = true := rfl
  exact consistent_perform fresh ordinary

theorem reachable_reset_load (wiring : Wiring) (source : σ) (threshold : Level) (rom : List Byte) :
    Reachable ((assemble wiring source threshold).reset.load rom).console := by
  have reset : (Operation.reset).ordinary = true := rfl
  have load : (Operation.load rom).ordinary = true := rfl
  exact ((Reachable.assembled wiring source threshold).performed reset).performed load

theorem at_reset_load (c : Console σ) {rom : List Byte} (fits : rom.length ≤ programSpace) :
    At rom 0 (c.reset.load rom).console := by
  have machine := machine_reset_load c fits
  refine ⟨consistent_reset_load c rom, ?_, ?_, ?_⟩
  · rw [machine]
  · rw [machine]
    rfl
  · rw [machine]
    rfl

theorem cornered_reset_load (c : Console σ) {rom : List Byte} (fits : rom.length ≤ programSpace) :
    Cornered rom 0 (c.reset.load rom).console := by
  have machine := machine_reset_load c fits
  refine ⟨at_reset_load c fits, ?_, ?_⟩
  · rw [machine]
    rfl
  · rw [machine]
    rfl

/-- After a reset the machine starts with the first word of the program. -/
theorem executing_reset_load (c : Console σ) {rom : List Byte} (fits : rom.length ≤ programSpace)
    (words : 1 < rom.length) {i : Instruction}
    (decoded : Instruction.decode ((rom[0].toNat : Int) * 256 + (rom[1].toNat : Int)) = some i) :
    (c.reset.load rom).console.executing = some i :=
  (at_reset_load c fits).executing fits words decoded

end Console

end HexConsole
