import HexConsole.Proofs.Reachable
import HexConsole.Proofs.Touches

/-!
# Safe cycles

A cycle of the machine is one step: it notes the address, fetches a word, moves past it
and carries it out. The console's cycle comes to the same machine and the same failure, so
what the step touches is what the cycle touches. Main statement: on a console that a host
can reach, a cycle ends well or with a fault that halts the machine, and every cell that
it touches is there.
-/
namespace HexConsole

namespace Machine.Step

/-- One cycle of a machine that runs, with the byte that each word would be supplied with. -/
def cycle (byte : Int → Int) : Step Unit := do
  modify fun m => { m with operandAddress := m.counter }
  let word ← fetch
  skip 2
  dispatch (byte word) word

theorem run_peek_cases (m : Machine) (address : Int) :
    (∃ b, (peek address).run m = .ok b m) ∨
      (peek address).run m = .error (.noCell .memory .reading address) m := by
  simp only [peek, run_bind, run_get, run_touch]
  cases position? m.memory.size address with
  | none => exact .inr rfl
  | some a => exact .inl ⟨_, rfl⟩

/-- A fetch, successful or not, leaves the machine alone. -/
theorem run_fetch (m : Machine) :
    fetch.run m = match m.fetch with
      | .ok word => .ok word m
      | .error e => .error e m := by
  unfold Machine.fetch fetch
  simp only [run_bind, run_get]
  split_ifs
  · rfl
  · obtain ⟨high, first⟩ | first := run_peek_cases m m.counter
    · obtain ⟨low, second⟩ | second := run_peek_cases m (m.counter + 1) <;>
        simp only [run_bind, first, second, run_pure]
    · simp only [run_bind, first]

theorem safe_cycle {m : Machine} (h : m.Nominal) (byte : Int → Int) : (cycle byte).Safe m := by
  have looking : { m with operandAddress := m.counter }.Nominal := { h with }
  refine (safe_modify _).bind (run_modify m _) ?_
  rw [safe_bind]
  refine ⟨safe_fetch looking, ?_⟩
  intro word n ends
  rw [run_fetch, fetch_eq looking] at ends
  by_cases past : 4094 < m.counter
  · rw [if_pos past] at ends
    cases ends
  · rw [if_neg past] at ends
    cases ends
    have low := h.counter.1
    have range : 0 ≤ m.counter + 2 ∧ m.counter + 2 ≤ 4350 := by omega
    have passed : { m with operandAddress := m.counter, counter := m.counter + 2 }.Nominal :=
      { h with counter := range }
    exact (safe_modify _).bind (run_modify _ _) (safe_dispatch passed _ _)

end Machine.Step

namespace Console

open Machine

variable {σ : Type} [RandomSource σ]

/-- The next cycle of the machine, with the byte that its random source would give. -/
def step (c : Console σ) : Step Unit := Step.cycle fun word => (c.supply word).1

/-- The console's cycle and the machine's come to the same. -/
theorem after_step (c : Console σ) :
    c.machine.after c.step = (c.advance.console.machine, c.advance.failure?) := by
  unfold advance after step Step.cycle
  simp only [Step.run_bind, Step.run_modify, Step.run_fetch]
  rw [show { c.machine with operandAddress := c.machine.counter } = c.look.machine from rfl]
  cases c.look.machine.fetch with
  | error e => rfl
  | ok word =>
    have byte : (c.supply word).1 = ((c.look.pass word).supply word).1 := by
      rw [pass_eq]
      unfold supply
      split_ifs <;> rfl
    simp only [process, Machine.dispatch, after, byte, machine_supply]
    rw [pass_eq]
    rfl

/-- The cells that the next cycle touches. A machine with a recorded fault touches none. -/
def touches (c : Console σ) : List Touch :=
  match c.machine.fault with
  | some _ => []
  | none => c.step.touches c.machine

theorem proper_of_mem_touches {c : Console σ} (h : c.machine.Nominal) {t : Touch}
    (member : t ∈ c.touches) : t.Proper := by
  unfold touches at member
  cases halted : c.machine.fault with
  | some f => rw [halted] at member; cases member
  | none => rw [halted] at member; exact Step.safe_cycle h _ t member

theorem cycle_failure {c : Console σ} (h : c.machine.Consistent) :
    c.cycle.failure? = none ∨
      ∃ f, c.cycle.failure? = some (.fault f) ∧ f.kind ∈ FaultKind.halting := by
  cases halted : c.machine.fault with
  | some f =>
    rw [cycle_halted halted]
    exact .inr ⟨f, rfl, h.fault f halted⟩
  | none =>
    obtain ⟨-, ends⟩ | ⟨-, f, raised, ends⟩ | ⟨-, n, -, ends⟩ :=
      cycle_cases h.toNominal halted <;> rw [ends]
    · exact .inr ⟨c.endFault, rfl, Fault.kind_mem_halting (f := c.endFault) rfl⟩
    · exact .inr ⟨f, rfl, Fault.kind_mem_halting (attempt_origin raised)⟩
    · exact .inl rfl

/-- A cycle of a console that a host can reach has no failure but a halting fault. The step
that it comes to names every cell from the front and within its table, and gives memory and
registers no value that does not fit. -/
theorem cycle_safe {c : Console σ} (h : Reachable c) :
    (c.cycle.failure? = none ∨
      ∃ f, c.cycle.failure? = some (.fault f) ∧ f.kind ∈ FaultKind.halting) ∧
    c.machine.after c.step = (c.advance.console.machine, c.advance.failure?) ∧
    ∀ t ∈ c.touches, 0 ≤ t.index ∧ t.index < t.size ∧
      (t.table = .memory ∨ t.table = .registers → ∀ v ∈ t.stored?, 0 ≤ v ∧ v ≤ 255) := by
  refine ⟨cycle_failure h.consistent, after_step c, ?_⟩
  intro t member
  obtain ⟨⟨low, high⟩, fits⟩ := proper_of_mem_touches h.consistent.toNominal member
  exact ⟨low, high, fits⟩

/-- A program that saves all registers, and a random source below zero. -/
theorem cycle_safe_after_load :
    let c := (assemble ⟨true, true⟩ (Tape.repeating #[-1]) .debug).performAll
      [.reset, .load [0xFF, 0x55]]
    Reachable c ∧
      (c.cycle.failure? = none ∨
        ∃ f, c.cycle.failure? = some (.fault f) ∧ f.kind ∈ FaultKind.halting) ∧
      c.machine.after c.step = (c.advance.console.machine, c.advance.failure?) ∧
      ∀ t ∈ c.touches, 0 ≤ t.index ∧ t.index < t.size ∧
        (t.table = .memory ∨ t.table = .registers → ∀ v ∈ t.stored?, 0 ≤ v ∧ v ≤ 255) := by
  intro c
  have reached : Reachable c := (Reachable.assembled _ _ _).performAll (by decide)
  exact ⟨reached, cycle_safe reached⟩

end Console

end HexConsole
