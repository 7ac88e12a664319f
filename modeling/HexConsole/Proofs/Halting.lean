import HexConsole.Proofs.Loading

/-!
# Cycles that halt

Every check of an instruction comes before its first change, so a fault finds the machine
as the fetch left it. Main statement: a cycle that halts a console leaves behind the latched
fault, the address and the word that it reports and the advanced counter, and nothing else.
-/
namespace HexConsole

namespace Machine

/-- The trace of a cycle that ends in a fault. Past the last word there is nothing to fetch,
and then the counter and the operand stay. -/
def haltedBy (m : Machine) (f : Fault) : Machine :=
  { m with
    operandAddress := m.counter
    counter := if m.counter ≤ 4094 then m.counter + 2 else m.counter
    operand := if m.counter ≤ 4094 then m.wordAt m.counter else m.operand
    fault := some f }

end Machine

namespace Console

open Machine

variable {σ : Type} [RandomSource σ]

/-- The two ways in which a running machine halts. -/
theorem cycle_fault_cases {c : Console σ} {f : Fault} (h : c.machine.Nominal)
    (running : c.machine.fault = none) (raised : c.cycle.failure? = some (.fault f)) :
    (4094 < c.machine.counter ∧ f = c.endFault ∧ c.cycle.console = c.look.halted f) ∨
    (c.machine.counter ≤ 4094 ∧ c.fetched.attempt c.nextWord = .error f ∧
      c.cycle.console = c.fetched.halted f) := by
  obtain ⟨past, ends⟩ | ⟨inside, g, refused, ends⟩ | ⟨-, n, -, ends⟩ := cycle_cases h running
  · rw [ends] at raised ⊢
    cases raised
    exact .inl ⟨past, rfl, rfl⟩
  · rw [ends] at raised ⊢
    cases raised
    exact .inr ⟨inside, refused, rfl⟩
  · rw [ends] at raised
    cases raised

/-- A fault of a running console that a host can reach leaves memory, registers, stack,
timers, keys and frame alone, takes no random byte and sounds no tone. It reports the word
and the address that the machine has noted. -/
theorem cycle_fault_atomic {c : Console σ} {f : Fault} (h : Reachable c)
    (running : c.machine.fault = none) (raised : c.cycle.failure? = some (.fault f)) :
    c.cycle.console.machine = c.machine.haltedBy f ∧
      (c.cycle.console.source = c.source ∧ c.cycle.console.drawn = c.drawn ∧
        c.cycle.console.tones = c.tones ∧ c.cycle.console.wiring = c.wiring) ∧
      (4094 < c.machine.counter →
        f = .outOfBounds c.machine.counter c.machine.operand c.machine.counter "memory") ∧
      f.origin? = some (c.cycle.console.machine.operand, c.machine.counter) := by
  obtain ⟨past, rfl, ends⟩ | ⟨inside, refused, ends⟩ :=
    cycle_fault_cases h.consistent.toNominal running raised
  · have without : ¬c.machine.counter ≤ 4094 := by omega
    rw [ends]
    refine ⟨?_, ⟨rfl, rfl, rfl, rfl⟩, fun _ => rfl, rfl⟩
    unfold haltedBy
    rw [if_neg without, if_neg without]
    rfl
  · rw [ends]
    refine ⟨?_, ⟨rfl, rfl, rfl, rfl⟩, fun past => absurd inside (by omega), ?_⟩
    · unfold haltedBy
      rw [if_pos inside, if_pos inside]
      rfl
    · exact attempt_origin refused

/-- A program draws the digit zero, sets the flag and points the index at the last cell of memory.
Its next sprite does not lie in memory, and what the program has done so far stays. -/
theorem cycle_fault_atomic_dirtied :
    let rom : List Byte := [0xD0, 0x05, 0x6F, 0x01, 0xAF, 0xFF, 0xD0, 0x05]
    let start := ((assemble ⟨true, true⟩ (Tape.repeating #[]) .debug).reset.load rom).console
    let c := start.cycle.console.cycle.console.cycle.console
    let f : Fault := .outOfBounds 4096 0xD005 0x206 "memory"
    (Reachable c ∧ c.machine.fault = none ∧ c.cycle.failure? = some (.fault f)) ∧
      (c.machine.reg 15 = 1 ∧ c.machine.redraw = true ∧ c.machine.frame.shows 0 0 = true) ∧
      c.cycle.console.machine = c.machine.haltedBy f ∧ c.cycle.console.drawn = c.drawn ∧
      c.cycle.console.tones = c.tones := by
  intro rom
  have fits : rom.length ≤ programSpace := by decide
  have reached := reachable_reset_load ⟨true, true⟩ (Tape.repeating #[]) .debug rom
  have here := cornered_reset_load (assemble ⟨true, true⟩ (Tape.repeating #[]) .debug) fits
  have dark := (screen_reset_load (assemble ⟨true, true⟩ (Tape.repeating #[]) .debug) rom).1
  generalize ((assemble ⟨true, true⟩ (Tape.repeating #[]) .debug).reset.load rom).console = start
    at reached here dark ⊢
  dsimp only
  -- The digit is drawn.
  have first : start.executing = some (.draw 0 0 5) := here.executing fits (by decide) (by decide)
  obtain ⟨-, ⟨here, -, -⟩, asks, lit⟩ := here.draw fits first
  rw [dark, Frame.shows_blank, Bool.not_false] at lit
  replace reached := reached.cycle
  generalize start.cycle.console = a at here reached lit asks ⊢
  -- The flag is set.
  have second : a.executing = some (.setRegister 15 1) :=
    here.executing fits (by decide) (by decide)
  obtain ⟨executed, next, flag⟩ := here.setRegister second
  have plain : a.paints = false := by
    rw [paints, executed]
    rfl
  obtain ⟨frame, redraw⟩ := (cycle_screen here.consistent.toNominal).2 plain
  rw [← frame] at lit
  rw [← redraw] at asks
  replace reached := reached.cycle
  generalize a.cycle.console = b at next reached lit asks flag ⊢
  -- The index is set.
  have third : b.executing = some (.setIndex 0xFFF) :=
    next.executing fits (by decide) (by decide)
  obtain ⟨executed, last, index, registers⟩ := next.setIndex third
  have plain : b.paints = false := by
    rw [paints, executed]
    rfl
  obtain ⟨frame, redraw⟩ := (cycle_screen next.consistent.toNominal).2 plain
  rw [← frame] at lit
  rw [← redraw] at asks
  replace flag : b.cycle.console.machine.reg 15 = 1 := by
    unfold reg at flag ⊢
    rw [registers, flag]
    rfl
  replace reached := reached.cycle
  generalize b.cycle.console = c at last reached lit asks flag index ⊢
  -- The second digit is not drawn.
  have fourth : c.executing = some (.draw 0 0 5) := last.executing fits (by decide) (by decide)
  have word : c.machine.wordAt c.machine.counter = 0xD005 :=
    (nextWord_loaded fits last.memory last.counter (by decide)).trans (by simp [rom])
  have refused : c.result (.draw 0 0 5) = .error (.outOfBounds 4096 0xD005 0x206 "memory") := by
    have outside : memorySize < c.machine.index + (5 : Nat) := by
      rw [index]
      decide
    have counter : c.machine.counter = 0x206 := by
      rw [last.counter]
      decide
    have beyond : max c.machine.index memorySize = 4096 := by
      rw [index]
      decide
    rw [result_draw_of_outside (by decide) outside, beyond, word, counter]
  have raised : c.cycle.failure? = some (.fault (.outOfBounds 4096 0xD005 0x206 "memory")) := by
    rw [cycle_of_error last.consistent.toNominal fourth refused]
  obtain ⟨machine, ⟨-, drawn, tones, -⟩, -⟩ := cycle_fault_atomic reached last.running raised
  exact ⟨⟨reached, last.running, raised⟩, ⟨flag, asks, lit⟩, machine, drawn, tones⟩

end Console

end HexConsole
