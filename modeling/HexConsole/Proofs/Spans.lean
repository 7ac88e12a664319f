import HexConsole.Proofs.Writing
import Mathlib.Order.Bounds.Basic

/-!
# Spans of memory

Four instructions use memory, each a span of cells from the index on. Main statement: such an
instruction is refused exactly if its span has an address past the end of memory, and the report
names the first of them; otherwise it is carried out, and it reads the cells of its span only, or
fills all of them and no others. No other operand is refused for an address.
-/
namespace HexConsole

namespace Instruction

/-- How many cells of memory, from the index on, an instruction uses, if it uses memory at all. -/
def span? : Instruction → Option Nat
  | draw _ _ height => some height.val
  | storeDecimal _ => some 3
  | storeRegisters last => some (last.val + 1)
  | loadRegisters last => some (last.val + 1)
  | _ => none

/-- An instruction fills its span, or it fills nothing. -/
theorem stores_of_span {i : Instruction} {length : Nat} (spans : i.span? = some length) :
    i.stores = 0 ∨ i.stores = length := by
  cases i <;> simp_all [span?, stores]

theorem plain_of_span {i : Instruction} {length : Nat} (spans : i.span? = some length) :
    i.drawsByte = false := by
  cases i <;> simp_all [span?, drawsByte]

theorem word_of_span {i : Instruction} {length : Nat} (spans : i.span? = some length) :
    0x1000 ≤ i.word := by
  cases i <;> simp_all [span?, word] <;> omega

end Instruction

namespace Machine

variable {m n : Machine} {length : Nat} {i : Instruction}

/-- The addresses of a span that lie past the end of memory. -/
def beyond (m : Machine) (length : Nat) : Set Int :=
  { a | (m.index ≤ a ∧ a < m.index + length) ∧ 4096 ≤ a }

/-- What an instruction puts into the cells of its span, one after the other. -/
def filling (m : Machine) : Instruction → Nat → Int
  | .storeDecimal x, 0 => m.reg x / 100
  | .storeDecimal x, 1 => m.reg x / 10 % 10
  | .storeDecimal x, _ => m.reg x % 10
  | _, k => m.reg (Fin.ofNat 16 k)

/-- How a machine looks after an instruction has filled its span. -/
structure Filled (m : Machine) (i : Instruction) (n : Machine) : Prop where
  inside : ∀ a, m.index ≤ a → a < m.index + i.stores →
    n.byteAt a = BitVec.ofInt 8 (m.filling i (a - m.index).toNat)
  outside : ∀ a, 0 ≤ a → (a < m.index ∨ m.index + i.stores ≤ a) → n.byteAt a = m.byteAt a
  size : n.memory.size = m.memory.size
  others : n = { m with operand := n.operand, memory := n.memory }

/-- Filling does not depend on the operand that the machine has noted. -/
theorem Filled.of_noted {operand : Int} (filled : { m with operand }.Filled i n) : m.Filled i n :=
  { filled with inside := by cases i <;> exact filled.inside }

/-! ## Refusing a span -/

theorem isLeast_beyond (positive : 0 < length) (past : 4096 < m.index + length) :
    IsLeast (m.beyond length) (max m.index 4096) := by
  constructor
  · exact ⟨by omega, by omega⟩
  · rintro a ⟨⟨low, -⟩, high⟩
    omega

theorem beyond_nonempty_iff :
    (m.beyond length).Nonempty ↔ 0 < length ∧ 4096 < m.index + length := by
  constructor
  · rintro ⟨a, ⟨low, high⟩, past⟩
    omega
  · rintro ⟨positive, past⟩
    exact ⟨_, (isLeast_beyond positive past).1⟩

/-- An instruction with a span is refused for it or carried out. -/
theorem effect_of_span (spans : i.span? = some length) (byte : Int) :
    ∃ result, m.effect byte i = m.withinMemory length result := by
  cases i <;> simp only [Instruction.span?, Option.some_inj, reduceCtorEq] at spans <;>
    subst spans <;> exact ⟨_, rfl⟩

theorem effect_of_beyond (spans : i.span? = some length) (byte : Int)
    (past : (m.beyond length).Nonempty) :
    m.effect byte i =
      .error (.outOfBounds (max m.index 4096) m.operand m.operandAddress "memory") := by
  obtain ⟨result, ends⟩ := effect_of_span (m := m) spans byte
  obtain ⟨positive, past⟩ := beyond_nonempty_iff.mp past
  rw [ends]
  exact withinMemory_eq_error_iff.mpr ⟨positive, past, rfl⟩

theorem effect_of_not_beyond (spans : i.span? = some length) (byte : Int)
    (within : ¬(m.beyond length).Nonempty) : ∃ result, m.effect byte i = .ok result := by
  obtain ⟨result, ends⟩ := effect_of_span (m := m) spans byte
  rw [beyond_nonempty_iff] at within
  refine ⟨result, ends.trans (withinMemory_eq_ok_iff.mpr ⟨?_, rfl⟩)⟩
  unfold memorySize
  omega

/-- Without a span no address is refused. -/
theorem effect_of_no_span (free : i.span? = none) {byte address operand counter : Int}
    (raised : m.effect byte i = .error (.outOfBounds address operand counter "memory")) :
    False := by
  cases i with
  | draw | storeDecimal | storeRegisters | loadRegisters => cases free
  | leave | call =>
    simp only [effect] at raised
    split_ifs at raised
    cases raised
  | skipIfPressed x | skipUnlessPressed x =>
    rw [effect, withKey_eq_error_iff] at raised
    simp at raised
  | awaitKey x =>
    simp only [effect] at raised
    split at raised <;> cases raised
  | _ => cases raised

/-! ## Reading a span -/

variable {memory : Array Byte}

/-- A sprite is the same in a memory that holds the same rows. -/
theorem sprite_withMemory (same : ∀ a, m.index ≤ a → a < m.index + length →
    { m with memory }.byteAt a = m.byteAt a) (x y : Int) :
    { m with memory }.sprite x y m.index length = m.sprite x y m.index length := by
  funext u v
  by_cases inside : 0 ≤ u - x ∧ u - x < 8 ∧ 0 ≤ v - y ∧ v - y < length
  · have row := same (m.index + (v - y)) (by omega) (by omega)
    simp only [sprite, row]
  · simp only [sprite, decide_eq_false inside, Bool.false_and]

theorem drawn_withMemory {x y : Register} (same : ∀ a, m.index ≤ a → a < m.index + length →
    { m with memory }.byteAt a = m.byteAt a) :
    { m with memory }.drawn x y length = { m.drawn x y length with memory } := by
  have sprite := sprite_withMemory same (m.reg x) (m.reg y)
  unfold drawn
  simp only [show ∀ z, { m with memory }.reg z = m.reg z from fun _ => rfl, sprite]
  rfl

theorem restored_withMemory (same : ∀ a, m.index ≤ a → a < m.index + length →
    { m with memory }.byteAt a = m.byteAt a) :
    { m with memory }.restored length = { m.restored length with memory } := by
  have registers : { m with memory }.restoredRegisters length = m.restoredRegisters length := by
    unfold restoredRegisters
    congr 1
    funext x
    by_cases low : x.val < length
    · have cell := same (m.index + x) (by omega) (by omega)
      simp only [if_pos low, cell]
    · simp only [if_neg low, reg]
  unfold restored
  rw [registers]

/-- An instruction that fills nothing does the same in a memory that holds the same in its span. -/
theorem effect_withMemory (spans : i.span? = some length) (reads : i.stores = 0)
    (same : ∀ a, m.index ≤ a → a < m.index + length →
      { m with memory }.byteAt a = m.byteAt a) {byte : Int}
    (done : m.effect byte i = .ok n) :
    { m with memory }.effect byte i = .ok { n with memory } := by
  cases i with
  | draw x y height =>
    cases spans
    obtain ⟨inside, rfl⟩ := withinMemory_eq_ok_iff.mp done
    exact withinMemory_eq_ok_iff.mpr ⟨inside, drawn_withMemory same⟩
  | loadRegisters last =>
    cases spans
    obtain ⟨inside, rfl⟩ := withinMemory_eq_ok_iff.mp done
    exact withinMemory_eq_ok_iff.mpr ⟨inside, restored_withMemory same⟩
  | storeDecimal | storeRegisters => cases reads
  | _ => cases spans

theorem memory_of_span (spans : i.span? = some length) (reads : i.stores = 0) {byte : Int}
    (done : m.effect byte i = .ok n) : n.memory = m.memory := by
  cases i with
  | draw | loadRegisters =>
    obtain ⟨-, rfl⟩ := withinMemory_eq_ok_iff.mp done
    rfl
  | storeDecimal | storeRegisters => cases reads
  | _ => cases spans

/-! ## Filling a span -/

theorem byteAt_setByte {address : Int} (inside : address.toNat < m.memory.size)
    (other value : Int) :
    (m.setByte address value).byteAt other =
      if address.toNat = other.toNat then BitVec.ofInt 8 value else m.byteAt other := by
  simp only [byteAt, setByte, Array.getElem?_setIfInBounds]
  split_ifs <;> rfl

/-- Only memory has changed. -/
theorem Filled.withMemory
    (inside : ∀ a, m.index ≤ a → a < m.index + i.stores →
      { m with memory }.byteAt a = BitVec.ofInt 8 (m.filling i (a - m.index).toNat))
    (outside : ∀ a, 0 ≤ a → (a < m.index ∨ m.index + i.stores ≤ a) →
      { m with memory }.byteAt a = m.byteAt a)
    (size : memory.size = m.memory.size) : m.Filled i { m with memory } :=
  ⟨inside, outside, size, rfl⟩

theorem filled_withDigits (h : m.Nominal) (x : Register) (inside : m.index + 3 ≤ memorySize) :
    m.Filled (.storeDecimal x) (m.withDigits (m.reg x)) := by
  have writes := Writes.withDigits x h.index.1 (m.reg x)
  refine Filled.withMemory ?_ writes.memory.2 writes.memory.1
  intro a low high
  change (m.withDigits (m.reg x)).byteAt a = _
  have start := h.index.1
  have size := h.memory
  simp only [Instruction.stores] at high
  rw [withDigits, byteAt_setByte (by simp; omega), byteAt_setByte (by simp; omega),
    byteAt_setByte (by omega)]
  obtain rfl | rfl | rfl : a = m.index ∨ a = m.index + 1 ∨ a = m.index + 2 := by omega
  · have place : (m.index - m.index).toNat = 0 := by omega
    rw [if_neg (by omega), if_neg (by omega), if_pos rfl, place]
    rfl
  · have place : (m.index + 1 - m.index).toNat = 1 := by omega
    rw [if_neg (by omega), if_pos rfl, place]
    rfl
  · have place : (m.index + 2 - m.index).toNat = 2 := by omega
    rw [if_pos (by omega), place]
    rfl

theorem filled_saved (h : m.Nominal) (last : Register)
    (inside : m.index + (last.val + 1 : Nat) ≤ memorySize) :
    m.Filled (.storeRegisters last) (m.saved (last.val + 1)) := by
  have outside := (Writes.saved h.memory last).memory.2
  have size : (m.savedMemory (last.val + 1)).size = m.memory.size := by
    rw [h.memory, savedMemory, Array.size_ofFn]
  refine Filled.withMemory ?_ outside size
  intro a low high
  obtain ⟨k, rfl⟩ := Int.eq_ofNat_of_zero_le (Int.le_trans h.index.1 low)
  simp only [Instruction.stores] at high
  have cell : k < memorySize := by omega
  simp only [byteAt, savedMemory, Int.toNat_natCast, Array.getElem?_ofFn, dif_pos cell]
  rw [if_pos ⟨low, high⟩]
  rfl

/-- An instruction that fills its span fills all of it. -/
theorem effect_filled (h : m.Nominal) (spans : i.span? = some length) (fills : 0 < i.stores)
    {byte : Int} (done : m.effect byte i = .ok n) : m.Filled i n := by
  cases i with
  | storeDecimal x =>
    obtain ⟨inside, rfl⟩ := withinMemory_eq_ok_iff.mp done
    exact filled_withDigits h x (by omega)
  | storeRegisters last =>
    obtain ⟨inside, rfl⟩ := withinMemory_eq_ok_iff.mp done
    exact filled_saved h last (by omega)
  | draw | loadRegisters => cases fills
  | _ => cases spans

end Machine

/-- Whether an operation ends because an address is not in memory. -/
def Outcome.LeavesMemory {σ : Type} (o : Outcome σ) : Prop :=
  ∃ address operand counter,
    o.failure? = some (.fault (.outOfBounds address operand counter "memory"))

namespace Console

open Machine

variable {σ : Type}

def withMemory (c : Console σ) (memory : Array Byte) : Console σ :=
  { c with machine := { c.machine with memory } }

variable [RandomSource σ] {c : Console σ}

/-- Whether an operand writes no memory, and ends the same in every memory that holds the same in a
span from the index on. -/
def ReadsOnly (c : Console σ) (length : Nat) (operand : Int) : Prop :=
  (c.process operand).console.machine.memory = c.machine.memory ∧
  ∀ memory : Array Byte, memory.size = 4096 →
    (∀ a, c.machine.index ≤ a → a < c.machine.index + length →
      (c.withMemory memory).machine.byteAt a = c.machine.byteAt a) →
    let o := c.process operand
    (c.withMemory memory).process operand = ⟨o.console.withMemory memory, o.failure?⟩

theorem readsOnly_of_span (h : c.machine.Nominal) {operand : Int} {i : Instruction} {length : Nat}
    (decoded : Instruction.decode operand = some i) (spans : i.span? = some length)
    (reads : i.stores = 0) {n : Machine}
    (done : { c.machine with operand }.effect 0 i = .ok n) : c.ReadsOnly length operand := by
  have plain := Instruction.plain_of_span spans
  have ends := process_of_ok h decoded plain done
  have kept := memory_of_span (m := { c.machine with operand }) spans reads done
  refine ⟨by rw [ends, kept], ?_⟩
  intro memory size same o
  have nominal : (c.withMemory memory).machine.Nominal := { h with memory := size }
  have other := effect_withMemory (m := { c.machine with operand }) spans reads same done
  rw [process_of_ok nominal decoded plain other]
  simp only [o, ends]
  rfl

/-- An operand whose span has an address past the end of memory. -/
theorem process_of_beyond (h : c.machine.Nominal) {operand : Int} {i : Instruction} {length : Nat}
    (decoded : Instruction.decode operand = some i) (spans : i.span? = some length)
    (past : (c.machine.beyond length).Nonempty) :
    c.process operand = ⟨{ c with machine := { c.machine with operand } }, some (.fault
      (.outOfBounds (max c.machine.index 4096) operand c.machine.operandAddress "memory"))⟩ :=
  process_of_error h decoded (Instruction.plain_of_span spans)
    (effect_of_beyond (m := { c.machine with operand }) spans 0 past)

/-- An operand whose span lies in memory reads it or fills it. -/
theorem process_of_within (h : c.machine.Nominal) {operand : Int} {i : Instruction} {length : Nat}
    (decoded : Instruction.decode operand = some i) (spans : i.span? = some length)
    (within : ¬(c.machine.beyond length).Nonempty) :
    ∃ n, c.process operand = ⟨{ c with machine := n }, none⟩ ∧
      (i.stores = 0 → c.ReadsOnly length operand) ∧
      (i.stores ≠ 0 → i.stores = length ∧ c.machine.Filled i n) := by
  obtain ⟨n, done⟩ := effect_of_not_beyond (m := { c.machine with operand }) spans 0 within
  refine ⟨n, process_of_ok h decoded (Instruction.plain_of_span spans) done, ?_, ?_⟩
  · intro reads
    exact readsOnly_of_span h decoded spans reads done
  · intro fills
    have filled := effect_filled (h.noting operand) spans (Nat.pos_of_ne_zero fills) done
    exact ⟨(Instruction.stores_of_span spans).resolve_left fills, filled.of_noted⟩

/-- The operands without a span. -/
theorem not_leavesMemory_of_no_span (h : c.machine.Nominal) {operand : Int}
    (free : ∀ i, Instruction.decode operand = some i → i.span? = none) :
    ¬(c.process operand).LeavesMemory := by
  rintro ⟨address, noted, counter, failed⟩
  rw [process_eq h, attempt, obeyed] at failed
  cases decoded : Instruction.decode operand with
  | none => simp [decoded] at failed
  | some i =>
    cases ends : { c.machine with operand }.effect (c.supply operand).1 i with
    | ok n => simp [decoded, ends] at failed
    | error f =>
      simp only [decoded, ends, Option.some_inj, Failure.fault.injEq] at failed
      subst failed
      exact effect_of_no_span (free i decoded) ends

/-- An operand that uses a span of memory from the index on is refused exactly if the span has an
address past the end of memory. The report then names the first of them, and nothing has changed but
the noted operand. Otherwise the operand is carried out, and what it does depends on the bytes of
its span alone, or it fills all the bytes of its span and changes nothing else. An empty span is
never refused, wherever the index points, and no other operand is refused for an address. -/
theorem process_span (h : c.machine.Nominal) (operand : Int) :
    (∀ (i : Instruction) length, i.span? = some length → operand % 65536 = i.word →
      ((c.process operand).LeavesMemory ↔ (c.machine.beyond length).Nonempty) ∧
      ((c.machine.beyond length).Nonempty → ∃ a, IsLeast (c.machine.beyond length) a ∧
        c.process operand = ⟨{ c with machine := { c.machine with operand } },
          some (.fault (.outOfBounds a operand c.machine.operandAddress "memory"))⟩) ∧
      (¬(c.machine.beyond length).Nonempty → ∃ n,
        c.process operand = ⟨{ c with machine := n }, none⟩ ∧
        (i.stores = 0 → c.ReadsOnly length operand) ∧
        (i.stores ≠ 0 → i.stores = length ∧ c.machine.Filled i n))) ∧
    (∀ x y, operand % 65536 = (Instruction.draw x y 0).word →
      (c.process operand).failure? = none) ∧
    ((∀ (i : Instruction) length, i.span? = some length → operand % 65536 ≠ i.word) →
      ¬(c.process operand).LeavesMemory) := by
  refine ⟨?_, ?_, ?_⟩
  · intro i length spans written
    have decoded := Instruction.decode_of_word written (Instruction.word_of_span spans)
    refine ⟨⟨?_, ?_⟩, ?_, process_of_within h decoded spans⟩
    · rintro ⟨address, noted, counter, failed⟩
      by_contra within
      obtain ⟨n, done, -⟩ := process_of_within h decoded spans within
      rw [done] at failed
      cases failed
    · intro past
      rw [process_of_beyond h decoded spans past]
      exact ⟨_, _, _, rfl⟩
    · intro past
      obtain ⟨positive, far⟩ := beyond_nonempty_iff.mp past
      exact ⟨_, isLeast_beyond positive far, process_of_beyond h decoded spans past⟩
  · intro x y written
    have spans : (Instruction.draw x y 0).span? = some 0 := rfl
    have decoded := Instruction.decode_of_word written (Instruction.word_of_span spans)
    have within : ¬(c.machine.beyond 0).Nonempty := by simp [beyond_nonempty_iff]
    obtain ⟨n, done, -⟩ := process_of_within h decoded spans within
    rw [done]
  · intro other
    apply not_leavesMemory_of_no_span h
    intro i decoded
    cases spans : i.span? with
    | none => rfl
    | some length => exact absurd (Instruction.word_of_decode decoded) (other i length spans)

/-- With the index at the last cell, a sprite of two rows is refused although none of its rows would
lie on the frame, and one register is stored in that cell. -/
theorem process_span_last_cell :
    let c : Console Tape := { assemble ⟨true, true⟩ (Tape.repeating #[]) .debug with
      machine := { Machine.initial with
        index := 4095
        registers := #[7, 255, 0, 0, 0, 0, 0, 0, 0, 0, 0, 0, 0, 0, 0, 0] } }
    c.machine.Nominal ∧
      (c.process 0xD012).failure? = some (.fault (.outOfBounds 4096 0xD012 0x200 "memory")) ∧
      ∃ n, c.process 0xF055 = ⟨{ c with machine := n }, none⟩ ∧ n.byteAt 4095 = 7 ∧
        n.byteAt 0 = c.machine.byteAt 0 := by
  intro c
  have nominal : c.machine.Nominal :=
    { consistent_initial.toNominal with
      index := by decide
      registers := rfl
      octets := by decide }
  obtain ⟨two, -⟩ := process_span nominal 0xD012
  obtain ⟨one, -⟩ := process_span nominal 0xF055
  have past : IsLeast (c.machine.beyond 2) 4096 := isLeast_beyond (by decide) (by decide)
  have within : ¬(c.machine.beyond 1).Nonempty := mt beyond_nonempty_iff.mp (by decide)
  obtain ⟨-, refused, -⟩ := two (.draw 0 1 2) 2 rfl (by decide)
  obtain ⟨-, -, carried⟩ := one (.storeRegisters 0) 1 rfl (by decide)
  obtain ⟨a, least, refused⟩ := refused past.nonempty
  obtain ⟨n, done, -, fills⟩ := carried within
  obtain ⟨-, filled⟩ := fills (by decide)
  refine ⟨nominal, ?_, n, done, filled.inside 4095 (by decide) (by decide),
    filled.outside 0 (by decide) (.inl (by decide))⟩
  rw [refused, least.unique past]
  rfl

end Console

end HexConsole
