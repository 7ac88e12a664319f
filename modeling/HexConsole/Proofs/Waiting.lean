import HexConsole.Proofs.Latch
import HexConsole.Proofs.Timers

/-!
# Waiting for a key

There is no state of waiting: as long as no key is down, the instruction that waits moves the
counter back onto itself, so that the next cycle executes it again. Main statement: while the keys
are up a console that waits does nothing but let its timers run down, for any number of cycles, and
the first cycle that finds a key down takes the lowest of them and goes on with the next word.
-/
namespace HexConsole

namespace Keypad

variable {keys : Keypad}

theorem first?_eq_none_iff : keys.first? = none ↔ ∀ k : Fin 16, keys.get k = false := by
  rw [first?, List.findIdx?_eq_none_iff]
  constructor
  · intro up k
    exact up _ (Vector.mem_toList_iff.mpr (Vector.getElem_mem k.isLt))
  · intro up state held
    obtain ⟨k, inside, rfl⟩ := Vector.mem_iff_getElem.mp (Vector.mem_toList_iff.mp held)
    exact up ⟨k, inside⟩

/-- If a key is down, there is a lowest one. -/
theorem exists_first? (down : ∃ k : Fin 16, keys.get k = true) :
    ∃ k : Fin 16, keys.first? = some k.val ∧ keys.get k = true ∧ ∀ j < k, keys.get j = false := by
  cases first : keys.first? with
  | none =>
    obtain ⟨k, held⟩ := down
    rw [first?_eq_none_iff.mp first k] at held
    cases held
  | some k =>
    have inside := lt_of_first? first
    rw [first?, List.findIdx?_eq_some_iff_getElem] at first
    obtain ⟨_, held, before⟩ := first
    have down : keys[k] = true := by simpa using held
    refine ⟨⟨k, inside⟩, rfl, down, ?_⟩
    intro j lower
    have up : keys[j.val] = false := by simpa using before j.val lower
    exact up

end Keypad

/-- Whether an operation moves keys and does nothing else. -/
def Operation.movesKeys : Operation → Bool
  | setKeys _ => true
  | press _ => true
  | release _ => true
  | _ => false

theorem continues_of_movesKeys {operation : Operation} (moves : operation.movesKeys = true) :
    operation.continues = true := by
  cases operation with
  | reset | process => cases moves
  | _ => rfl

namespace Console

open Machine

variable {σ : Type}

/-- A console that is about to wait for a key, and to put it in a register. -/
structure Awaits (t : Register) (c : Console σ) : Prop where
  consistent : c.machine.Consistent
  running : c.machine.fault = none
  inside : c.machine.counter ≤ 4094
  word : c.nextWord = 0xF00A + 0x100 * t.val

/-- How a console goes on that waits for `n` ticks. -/
structure Idled (n : Nat) (c d : Console σ) : Prop where
  machine : d.machine = { c.machine with
    keys := d.machine.keys
    delay := d.machine.delay
    sound := d.machine.sound
    tone := d.machine.tone
    operand := d.machine.operand
    operandAddress := d.machine.operandAddress }
  aged : Aged n c d

namespace Idled

variable {k l : Nat} {c d e : Console σ}

theorem refl (h : c.machine.Nominal) : Idled 0 c c := ⟨rfl, .refl h⟩

theorem trans (first : Idled k c d) (second : Idled l d e) : Idled (k + l) c e where
  machine := by rw [second.machine, first.machine]
  aged := first.aged.trans second.aged

end Idled

namespace Awaits

variable {t : Register} {n : Nat} {c d : Console σ}

theorem executing (h : Awaits t c) : c.executing = some (.awaitKey t) := by
  have outside : 0x1000 ≤ (Instruction.awaitKey t).word := by
    simp only [Instruction.word]
    omega
  have written : c.nextWord % 65536 = (Instruction.awaitKey t).word := by
    rw [h.word]
    simp only [Instruction.word]
    omega
  exact (executing_eq_some_iff h.consistent.toNominal).mpr
    ⟨h.running, h.inside, Instruction.decode_of_word written outside⟩

/-- A console that has waited still waits. -/
theorem idled (h : Awaits t c) (consistent : d.machine.Consistent) (idled : Idled n c d) :
    Awaits t d := by
  have machine := idled.machine
  refine ⟨consistent, ?_, ?_, ?_⟩
  · rw [machine]
    exact h.running
  · rw [machine]
    exact h.inside
  · unfold nextWord
    rw [machine]
    exact h.word

end Awaits

variable [RandomSource σ]

/-- An operation that moves keys changes nothing else, and nothing at all if it is refused. -/
theorem perform_movesKeys (c : Console σ) {operation : Operation}
    (moves : operation.movesKeys = true) :
    (c.perform operation).console = { c with machine := { c.machine with
      keys := (c.perform operation).console.machine.keys } } := by
  cases operation with
  | setKeys states =>
    simp only [perform, update, Machine.setKeys]
    split_ifs <;> rfl
  | press key | release key =>
    simp only [perform, update, Machine.setKey]
    cases position? 16 key <;> rfl
  | _ => cases moves

theorem idled_movesKeys {c : Console σ} (h : c.machine.Nominal) {operation : Operation}
    (moves : operation.movesKeys = true) : Idled 0 c (c.perform operation).console := by
  rw [perform_movesKeys c moves]
  exact ⟨rfl, .still h ⟨rfl, rfl, rfl⟩ rfl rfl⟩

namespace Awaits

variable {t : Register} {c : Console σ}

/-- A cycle that finds no key down moves the counter back to where it was. -/
theorem cycle_up (h : Awaits t c) (up : ∀ k : Fin 16, c.machine.keys.get k = false) :
    Idled (if c.wiring.ticksAfterCycle then 1 else 0) c c.cycle.console := by
  have none : c.machine.fetched.keys.first? = none := Keypad.first?_eq_none_iff.mpr up
  have back : c.machine.fetched.counter - 2 = c.machine.counter := Int.add_sub_cancel _ _
  have result : c.result (.awaitKey t) =
      .ok { c.machine.fetched with counter := c.machine.counter } := by
    simp only [Console.result, effect, none, back]
  obtain ⟨executed, machine⟩ := executed_of_ok h.consistent.toNominal h.executing result
  refine ⟨?_, aged_executed h.consistent executed⟩
  rw [machine]
  rfl

/-- A cycle that finds a key down takes the lowest one, and leaves the counter past the wait. -/
theorem cycle_down (h : Awaits t c) (down : ∃ k : Fin 16, c.machine.keys.get k = true) :
    c.cycle.failure? = none ∧
    c.cycle.console.machine = { c.machine with
      registers := c.cycle.console.machine.registers
      counter := c.machine.counter + 2
      delay := c.cycle.console.machine.delay
      sound := c.cycle.console.machine.sound
      tone := c.cycle.console.machine.tone
      operand := c.cycle.console.machine.operand
      operandAddress := c.cycle.console.machine.operandAddress } ∧
    ∃ k : Fin 16, (c.machine.keys.get k = true ∧ ∀ j < k, c.machine.keys.get j = false) ∧
      ∀ z, c.cycle.console.machine.reg z = if z = t then (k.val : Int) else c.machine.reg z := by
  obtain ⟨k, first, lowest⟩ := Keypad.exists_first? down
  have first' : c.machine.fetched.keys.first? = some k.val := first
  have result : c.result (.awaitKey t) = .ok (c.machine.fetched.setReg t k.val) := by
    simp only [Console.result, effect, first']
  have nominal := h.consistent.toNominal
  obtain ⟨executed, machine⟩ := executed_of_ok nominal h.executing result
  refine ⟨success_of_executed executed, ?_, k, lowest, ?_⟩
  · rw [machine]
    rfl
  · intro z
    rw [machine]
    simp only [eq_comm (a := z)]
    exact reg_setReg (m := c.machine.fetched) nominal.registers t z k.val

end Awaits

/-! ## Whole waits -/

theorem idled_performAll {t : Register} {c : Console σ} (h : Awaits t c)
    {operations : List Operation}
    (moves : ∀ o ∈ operations, o = .cycle ∨ o.movesKeys = true)
    (up : ∀ before after, operations = before ++ .cycle :: after →
      ∀ k : Fin 16, (c.performAll before).machine.keys.get k = false) :
    Idled (if c.wiring.ticksAfterCycle then operations.count .cycle else 0) c
      (c.performAll operations) := by
  induction operations generalizing c with
  | nil =>
    have none : (if c.wiring.ticksAfterCycle then [].count Operation.cycle else 0) = 0 := by simp
    rw [none]
    exact .refl h.consistent.toNominal
  | cons operation rest ih =>
    obtain ⟨first, others⟩ := List.forall_mem_cons.mp moves
    obtain ⟨now, later⟩ := (forall_cycle_cons
      (fun d => ∀ k : Fin 16, d.machine.keys.get k = false) c operation rest).mp up
    by_cases cycle : operation = .cycle
    · subst cycle
      -- The word is still the same after the cycle, so the rest of the run waits as well.
      have once := h.cycle_up (now rfl)
      have waits := ih (h.idled (consistent_cycle h.consistent) once) others later
      rw [once.aged.wiring] at waits
      have together := once.trans waits
      have count : (if c.wiring.ticksAfterCycle then 1 else 0) +
          (if c.wiring.ticksAfterCycle then rest.count Operation.cycle else 0) =
          if c.wiring.ticksAfterCycle then (.cycle :: rest).count Operation.cycle else 0 := by
        rw [List.count_cons_self]
        split_ifs <;> omega
      rw [count] at together
      exact together
    · have moved := idled_movesKeys h.consistent.toNominal (first.resolve_left cycle)
      have continues := continues_of_movesKeys (first.resolve_left cycle)
      have waits := ih (h.idled (consistent_perform_continues h.consistent continues) moved)
        others later
      rw [moved.aged.wiring] at waits
      have together := moved.trans waits
      rw [Nat.zero_add] at together
      rw [List.count_cons_of_ne cycle]
      exact together

/-- A console that a host can reach, and that is about to wait for a key, waits through any number
of cycles at which all keys are up, whatever the host does to the keys between them: only the
timers run down, if cycles tick. The first cycle after that at which some key is down puts the
lowest of these keys in the register, and leads to the next word. -/
theorem key_wait {c : Console σ} (reached : Reachable c) (running : c.machine.fault = none)
    (inside : c.machine.counter ≤ 4094) {t : Register}
    (word : c.nextWord = 0xF00A + 0x100 * t.val) {operations : List Operation}
    (moves : ∀ o ∈ operations, o = .cycle ∨ o.movesKeys = true)
    (up : ∀ before after, operations = before ++ .cycle :: after →
      ∀ k : Fin 16, (c.performAll before).machine.keys.get k = false) :
    let d := c.performAll operations
    d.machine = { c.machine with
      keys := d.machine.keys
      delay := d.machine.delay
      sound := d.machine.sound
      tone := d.machine.tone
      operand := d.machine.operand
      operandAddress := d.machine.operandAddress } ∧
    (c.wiring.ticksAfterCycle = true → Aged (operations.count .cycle) c d) ∧
    (c.wiring.ticksAfterCycle = false →
      (d.machine.delay = c.machine.delay ∧ d.machine.sound = c.machine.sound ∧
        d.machine.tone = c.machine.tone) ∧ d.tones = c.tones) ∧
    ((∃ k : Fin 16, d.machine.keys.get k = true) →
      d.cycle.failure? = none ∧
      d.cycle.console.machine = { c.machine with
        registers := d.cycle.console.machine.registers
        counter := c.machine.counter + 2
        keys := d.machine.keys
        delay := d.cycle.console.machine.delay
        sound := d.cycle.console.machine.sound
        tone := d.cycle.console.machine.tone
        operand := d.cycle.console.machine.operand
        operandAddress := d.cycle.console.machine.operandAddress } ∧
      ∃ k : Fin 16, (d.machine.keys.get k = true ∧ ∀ j < k, d.machine.keys.get j = false) ∧
        ∀ z, d.cycle.console.machine.reg z =
          if z = t then (k.val : Int) else c.machine.reg z) := by
  intro d
  have awaits : Awaits t c := ⟨reached.consistent, running, inside, word⟩
  have idled := idled_performAll awaits moves up
  have aged := idled.aged
  refine ⟨idled.machine, ?_, ?_, ?_⟩
  · intro ticks
    rwa [if_pos ticks] at aged
  · intro loose
    rw [loose, if_neg Bool.false_ne_true] at aged
    exact aged.unticked reached.consistent.toNominal
  · intro down
    have continues : ∀ o ∈ operations, o.continues = true := by
      intro o member
      obtain rfl | moving := moves o member
      · rfl
      · exact continues_of_movesKeys moving
    have still := awaits.idled (consistent_performAll_continues reached.consistent continues) idled
    obtain ⟨done, machine, k, lowest, registers⟩ := still.cycle_down down
    have kept : ∀ z, d.machine.reg z = c.machine.reg z := by
      intro z
      rw [idled.machine]
      rfl
    refine ⟨done, ?_, k, lowest, ?_⟩
    · rw [machine, idled.machine]
    · intro z
      rw [← kept z]
      exact registers z

/-- A key that is released again before the cycle is not seen, and of two keys that are down after
it the lower one is taken, here into the flag register. -/
theorem key_wait_two_keys :
    let c := ((assemble ⟨true, true⟩ (Tape.repeating #[]) .debug).reset.load [0xFF, 0x0A]).console
    let operations : List Operation := [.press 5, .release 5, .cycle, .press 11, .press 7]
    let d := c.performAll operations
    (Reachable c ∧ c.machine.fault = none ∧ c.machine.counter ≤ 4094 ∧
      c.nextWord = 0xF00A + 0x100 * (15 : Register).val ∧
      (∀ o ∈ operations, o = .cycle ∨ o.movesKeys = true) ∧
      ∀ before after, operations = before ++ .cycle :: after →
        ∀ k : Fin 16, (c.performAll before).machine.keys.get k = false) ∧
    d.machine.counter = 0x200 ∧ d.cycle.failure? = none ∧
    d.cycle.console.machine.counter = 0x202 ∧ d.cycle.console.machine.reg 15 = 7 := by
  have fits : [0xFF, (0x0A : Byte)].length ≤ programSpace := by decide
  have here := at_reset_load (assemble ⟨true, true⟩ (Tape.repeating #[]) .debug) fits
  have reached := reachable_reset_load ⟨true, true⟩ (Tape.repeating #[]) .debug [0xFF, 0x0A]
  have released : ((assemble ⟨true, true⟩ (Tape.repeating #[]) .debug).reset.load
      [0xFF, 0x0A]).console.machine.keys = .released := by
    rw [machine_reset_load _ fits]
    rfl
  generalize ((assemble ⟨true, true⟩ (Tape.repeating #[]) .debug).reset.load
    [0xFF, 0x0A]).console = c at here reached released ⊢
  intro c operations d
  have inside : c.machine.counter ≤ 4094 := by
    rw [here.counter]
    decide
  have word : c.nextWord = 0xF00A + 0x100 * (15 : Register).val := by
    have executing : c.executing = some (.awaitKey 15) :=
      here.executing fits (by decide) (by decide)
    obtain ⟨-, -, decoded⟩ := (executing_eq_some_iff here.consistent.toNominal).mp executing
    have written := Instruction.word_of_decode decoded
    have bounds := c.machine.wordAt_bounds c.machine.counter
    change 0 ≤ c.nextWord ∧ c.nextWord ≤ 65535 at bounds
    change c.nextWord % 65536 = 0xFF0A at written
    change c.nextWord = 0xFF0A
    omega
  have moves : ∀ o ∈ operations, o = .cycle ∨ o.movesKeys = true := by decide
  have seen : (c.performAll [.press 5, .release 5]).machine.keys = .released := by
    have keys : (c.performAll [.press 5, .release 5]).machine.keys =
        (c.machine.keys.set 5 true (by decide)).set 5 false (by decide) := rfl
    rw [keys, released]
    decide
  have up : ∀ before after, operations = before ++ .cycle :: after →
      ∀ k : Fin 16, (c.performAll before).machine.keys.get k = false := by
    have split := forall_cycle_cons fun d : Console Tape => ∀ k, d.machine.keys.get k = false
    simp only [operations]
    rw [split, split, split, split, split]
    refine ⟨nofun, nofun, fun _ => ?_, nofun, nofun, by simp⟩
    change ∀ k, (c.performAll [.press 5, .release 5]).machine.keys.get k = false
    rw [seen]
    decide
  have keys : d.machine.keys =
      (Keypad.released.set 11 true (by decide)).set 7 true (by decide) := by
    have pressed (c : Console Tape) : (c.performAll [.press 11, .press 7]).machine.keys =
        (c.machine.keys.set 11 true (by decide)).set 7 true (by decide) := rfl
    have last := pressed (c.performAll [.press 5, .release 5]).cycle.console
    rw [keys_cycle, seen] at last
    exact last
  obtain ⟨machine, -, -, takes⟩ := key_wait reached here.running inside word moves up
  rw [keys] at takes
  obtain ⟨done, moved, k, lowest, registers⟩ := takes ⟨7, by decide⟩
  have seven : k = 7 := by
    clear registers moved takes
    revert k
    decide
  have counter := here.counter
  refine ⟨⟨reached, here.running, inside, word, moves, up⟩, ?_, done, ?_, ?_⟩
  · rw [machine]
    exact counter
  · rw [moved]
    simp [counter, programStart]
  · rw [registers 15, seven]
    rfl

end Console

end HexConsole
