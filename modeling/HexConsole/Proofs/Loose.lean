import HexConsole.Proofs.Loading

/-!
# Whose the timers are

The timers tick after every cycle, or when the host says so. Main statement: a cycle that ticks is
one that does not, followed by a tick if it has not failed, and nothing else in a console depends
on who ticks.
-/
namespace HexConsole

namespace Console

variable {σ : Type}

/-- A console whose cycles leave the timers to the host. -/
def loose (c : Console σ) : Console σ :=
  { c with wiring := { c.wiring with ticksAfterCycle := false } }

theorem loose_note (c : Console σ) (n : Note) : (c.note n).loose = c.loose.note n := rfl

theorem loose_tick (c : Console σ) : c.tick.loose = c.loose.tick := by
  have machine : c.loose.machine = c.machine := rfl
  have listener (d : Console σ) : (d.note .beep).wiring.toneListener = d.wiring.toneListener := rfl
  have same : c.loose.wiring.toneListener = c.wiring.toneListener := rfl
  simp only [tick, machine, listener, same]
  split_ifs <;> rfl

theorem settle_loose (c : Console σ) : c.loose.settle = c.loose := rfl

/-- A cycle that ends well ticks last, if it ticks at all. -/
theorem loose_settle (c : Console σ) :
    c.settle.loose = if c.wiring.ticksAfterCycle then c.loose.tick else c.loose := by
  unfold settle
  split_ifs
  · exact loose_tick c
  · rfl

theorem loose_load (c : Console σ) (rom : List Byte) :
    (c.load rom).console.loose = (c.loose.load rom).console := by
  simp only [load, loose]
  cases c.machine.load rom <;> rfl

/-- A console that has got its program in a reset machine. -/
theorem loose_boot (wiring : Wiring) (source : σ) (threshold : Level) (rom : List Byte) :
    ((assemble wiring source threshold).reset.load rom).console.loose =
      ((assemble { wiring with ticksAfterCycle := false } source threshold).reset.load
        rom).console := by
  have same : (assemble wiring source threshold).loose =
      assemble { wiring with ticksAfterCycle := false } source threshold := rfl
  have reset (c : Console σ) : c.reset.loose = c.loose.reset := by
    unfold Console.reset
    rw [loose_note]
    rfl
  rw [loose_load, reset, same]

theorem loose_pass (c : Console σ) (word : Int) : (c.pass word).loose = c.loose.pass word := by
  rw [pass_eq, pass_eq]
  rfl

variable [RandomSource σ]

theorem process_loose (c : Console σ) (operand : Int) :
    c.loose.process operand =
      ⟨(c.process operand).console.loose, (c.process operand).failure?⟩ := by
  simp only [process, supply]
  split_ifs <;> rfl

theorem advance_loose (c : Console σ) :
    c.loose.advance = ⟨c.advance.console.loose, c.advance.failure?⟩ := by
  simp only [advance]
  have same : c.loose.look.machine.fetch = c.look.machine.fetch := rfl
  rw [same]
  cases c.look.machine.fetch with
  | error e => rfl
  | ok word =>
    have passed : c.loose.look.pass word = (c.look.pass word).loose := (loose_pass c.look word).symm
    simp only [passed]
    exact process_loose (c.look.pass word) word

theorem wiring_advance (c : Console σ) : c.advance.console.wiring = c.wiring := by
  simp only [advance]
  cases c.look.machine.fetch with
  | error e => rfl
  | ok word =>
    simp only [process, supply, pass_eq]
    split_ifs <;> rfl

theorem wiring_cycle (c : Console σ) : c.cycle.console.wiring = c.wiring := by
  unfold cycle
  cases c.machine.fault with
  | some f => rfl
  | none =>
    simp only
    cases c.advance.failure? with
    | none => exact (settle_wired c.advance.console).2.trans (wiring_advance c)
    | some e => cases e <;> exact wiring_advance c

theorem wiring_perform (c : Console σ) {operation : Operation}
    (continues : operation.continues = true) :
    (c.perform operation).console.wiring = c.wiring := by
  by_cases cycle : operation = .cycle
  · subst cycle
    exact wiring_cycle c
  · by_cases tick : operation = .tick
    · subst tick
      exact (tick_wired c).2
    · rw [perform_aside c continues cycle tick]

theorem wiring_performAll (c : Console σ) {operations : List Operation}
    (continues : ∀ o ∈ operations, o.continues = true) :
    (c.performAll operations).wiring = c.wiring := by
  induction operations generalizing c with
  | nil => rfl
  | cons operation rest ih =>
    obtain ⟨first, others⟩ := List.forall_mem_cons.mp continues
    exact (ih (c.perform operation).console others).trans (wiring_perform c first)

/-- A cycle whose timers are the host's is the same cycle without its tick. -/
theorem cycle_loose (c : Console σ) :
    c.loose.cycle.failure? = c.cycle.failure? ∧
      c.cycle.console.loose =
        if c.cycle.failure?.isNone && c.wiring.ticksAfterCycle then c.loose.cycle.console.tick
        else c.loose.cycle.console := by
  have fault : c.loose.machine.fault = c.machine.fault := rfl
  unfold cycle
  rw [fault, advance_loose]
  cases c.machine.fault with
  | some f => exact ⟨rfl, rfl⟩
  | none =>
    simp only
    cases c.advance.failure? with
    | some e => cases e <;> exact ⟨rfl, rfl⟩
    | none =>
      refine ⟨rfl, ?_⟩
      simp only [loose_settle, settle_loose, wiring_advance, Option.isNone_none, Bool.true_and]

/-- Between cycles a host does the same whoever ticks in them. -/
theorem loose_perform (c : Console σ) {operation : Operation}
    (continues : operation.continues = true) (between : operation ≠ .cycle) :
    (c.perform operation).console.loose = (c.loose.perform operation).console := by
  cases operation with
  | reset | process => cases continues
  | cycle => exact absurd rfl between
  | tick => exact loose_tick c
  | clearRedraw => rfl
  | load rom => exact loose_load c rom
  | setKeys states =>
    simp only [perform, update, loose]
    cases c.machine.setKeys states <;> rfl
  | press key | release key =>
    simp only [perform, update, loose]
    cases c.machine.setKey key _ <;> rfl
  | fetch => rw [perform_fetch, perform_fetch]

theorem loose_performAll (c : Console σ) {operations : List Operation}
    (continues : ∀ o ∈ operations, o.continues = true) (between : .cycle ∉ operations) :
    (c.performAll operations).loose = c.loose.performAll operations := by
  induction operations generalizing c with
  | nil => rfl
  | cons operation rest ih =>
    obtain ⟨first, others⟩ := List.forall_mem_cons.mp continues
    rw [List.mem_cons, not_or] at between
    have later := ih (c.perform operation).console others between.2
    rw [loose_perform c first (Ne.symm between.1)] at later
    exact later

end Console

end HexConsole
