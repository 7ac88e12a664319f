import HexConsole.Proofs.Loose
import HexConsole.Proofs.Trace
import HexConsole.Proofs.Writing

/-!
# Counting ticks

Both timers run down by one in every tick, down to zero and not at the same time, and a tick that
finds the sound timer running sounds one tone. Ticks come from the host and from cycles that do not
fail. Main statement: at the end of a run the timers, the tone and the number of tones heard depend
on the number of its ticks alone, wherever they come from, as long as no cycle sets a timer.
-/
namespace HexConsole

namespace Machine

variable {m n : Machine}

/-- A machine whose timers an instruction has set, if it sets one. -/
def timed (m : Machine) : Instruction → Machine
  | .setDelay x => { m with delay := m.reg x }
  | .setSound x => { m with sound := m.reg x }
  | _ => m

theorem Nominal.timed (h : m.Nominal) (i : Instruction) : (m.timed i).Nominal := by
  cases i with
  | setDelay x => exact { h with delay := h.octet_reg x }
  | setSound x => exact { h with sound := h.octet_reg x }
  | _ => exact h

/-- A timer is moved by the instruction that sets it, and by no other. -/
theorem effect_timed (h : m.Nominal) {byte : Int} {i : Instruction}
    (done : m.effect byte i = .ok n) :
    n.delay = (m.timed i).delay ∧ n.sound = (m.timed i).sound ∧ n.tone = m.tone := by
  have writes := effect_writes h done
  cases i with
  | setDelay | setSound =>
    cases done
    exact ⟨rfl, rfl, rfl⟩
  | _ => exact ⟨writes.delay rfl, writes.sound rfl, writes.others.2.1⟩

end Machine

namespace Console

open Machine

variable {σ : Type}

/-! ## A number of ticks -/

/-- How a console goes on that ticks `k` times while nothing sets its timers. -/
structure Aged (k : Nat) (c d : Console σ) : Prop where
  delay : d.machine.delay = max 0 (c.machine.delay - k)
  sound : d.machine.sound = max 0 (c.machine.sound - k)
  tones : d.tones = c.tones + if c.wiring.toneListener then min k c.machine.sound.toNat else 0
  tone : d.machine.tone = if k = 0 then c.machine.tone else decide ((k : Int) ≤ c.machine.sound)
  wiring : d.wiring = c.wiring

namespace Aged

variable {k l : Nat} {c d e : Console σ}

/-- Without a tick the timers, the tone and the tones stay. -/
theorem still (h : c.machine.Nominal)
    (timers : d.machine.delay = c.machine.delay ∧ d.machine.sound = c.machine.sound ∧
      d.machine.tone = c.machine.tone)
    (tones : d.tones = c.tones) (wiring : d.wiring = c.wiring) : Aged 0 c d := by
  obtain ⟨delay, sound, tone⟩ := timers
  have positive := h.delay.1
  have positive' := h.sound.1
  refine ⟨by omega, by omega, ?_, by simpa using tone, wiring⟩
  rw [tones]
  simp

theorem unticked (h : c.machine.Nominal) (aged : Aged 0 c d) :
    (d.machine.delay = c.machine.delay ∧ d.machine.sound = c.machine.sound ∧
      d.machine.tone = c.machine.tone) ∧ d.tones = c.tones := by
  have delay := aged.delay
  have sound := aged.sound
  have positive := h.delay.1
  have positive' := h.sound.1
  refine ⟨⟨by omega, by omega, by simpa using aged.tone⟩, ?_⟩
  rw [aged.tones]
  simp

theorem refl (h : c.machine.Nominal) : Aged 0 c c := still h ⟨rfl, rfl, rfl⟩ rfl rfl

theorem trans (first : Aged k c d) (second : Aged l d e) : Aged (k + l) c e where
  delay := by
    rw [second.delay, first.delay]
    omega
  sound := by
    rw [second.sound, first.sound]
    omega
  tones := by
    rw [second.tones, first.tones, first.wiring, first.sound]
    split_ifs
    · omega
    · rfl
  tone := by
    rw [second.tone, first.tone, first.sound]
    -- The second part sets the tone, unless it has no tick.
    by_cases last : l = 0
    · simp [last]
    · have some : k + l ≠ 0 := by omega
      rw [if_neg last, if_neg some, decide_eq_decide]
      omega
  wiring := second.wiring.trans first.wiring

/-- One tick. -/
theorem tick (h : c.machine.Nominal) : Aged 1 c c.tick := by
  have machine := machine_tick c
  have lowered {v : Int} (positive : 0 ≤ v) : (if v = 0 then 0 else v - 1) = max 0 (v - 1) := by
    split_ifs <;> omega
  obtain ⟨delay, -⟩ := h.delay
  obtain ⟨sound, -⟩ := h.sound
  refine ⟨?_, ?_, ?_, ?_, (tick_wired c).2⟩
  · rw [machine]
    exact lowered delay
  · rw [machine]
    exact lowered sound
  · by_cases silent : c.machine.sound = 0
    · simp [Console.tick, Machine.tick, silent]
    · have one : min 1 c.machine.sound.toNat = 1 := by omega
      cases heard : c.wiring.toneListener <;>
        simp [Console.tick, Machine.tick, silent, heard, one, note]
  · have running : (c.machine.sound != 0) = decide (1 ≤ c.machine.sound) := by
      rw [Bool.eq_iff_iff, bne_iff_ne, decide_eq_true_iff]
      omega
    rw [machine]
    exact running

/-- The end of a cycle that has not failed. -/
theorem settle (h : c.machine.Nominal) :
    Aged (if c.wiring.ticksAfterCycle then 1 else 0) c c.settle := by
  unfold Console.settle
  split_ifs
  · exact tick h
  · exact refl h

end Aged

variable [RandomSource σ] {c : Console σ}

/-! ## The ticks of a run -/

/-- How often the timers tick in a run: once whenever the host asks for it, and, if cycles tick,
once in every cycle that does not fail. -/
def ticks (c : Console σ) (operations : List Operation) : Nat :=
  operations.count .tick +
    if c.wiring.ticksAfterCycle then (c.trace operations).countP (·.failure?.isNone) else 0

theorem ticks_cons (c : Console σ) {operation : Operation}
    (continues : operation.continues = true) (rest : List Operation) :
    c.ticks (operation :: rest) =
      c.ticks [operation] + (c.perform operation).console.ticks rest := by
  have sights : c.trace (operation :: rest) =
      c.trace [operation] ++ (c.perform operation).console.trace rest :=
    trace_append c [operation] rest
  have asked : (operation :: rest).count Operation.tick =
      [operation].count Operation.tick + rest.count Operation.tick := by
    rw [← List.singleton_append, List.count_append]
  simp only [ticks, wiring_perform c continues, sights, asked, List.countP_append]
  split_ifs <;> omega

theorem ticks_cycle (c : Console σ) :
    c.ticks [.cycle] =
      if c.wiring.ticksAfterCycle && c.cycle.failure?.isNone then 1 else 0 := by
  cases ticking : c.wiring.ticksAfterCycle <;> cases failure : c.cycle.failure? <;>
    simp [ticks, trace, sight, ticking, failure]

theorem ticks_of_ne (c : Console σ) {operation : Operation} (other : operation ≠ .cycle) :
    c.ticks [operation] = if operation = .tick then 1 else 0 := by
  rw [ticks, trace_of_ne c other]
  simp [trace, List.count_singleton]

/-! ## One cycle -/

/-- A cycle that fails never ticks. -/
theorem timers_failed (h : c.machine.Nominal) {e : Failure} (failed : c.cycle.failure? = some e) :
    (c.cycle.console.machine.delay = c.machine.delay ∧
      c.cycle.console.machine.sound = c.machine.sound ∧
      c.cycle.console.machine.tone = c.machine.tone) ∧
    c.cycle.console.tones = c.tones := by
  cases halted : c.machine.fault with
  | some f =>
    rw [cycle_halted halted]
    exact ⟨⟨rfl, rfl, rfl⟩, rfl⟩
  | none =>
    obtain ⟨-, ends⟩ | ⟨-, f, -, ends⟩ | ⟨-, n, -, ends⟩ := cycle_cases h halted
    · rw [ends]
      exact ⟨⟨rfl, rfl, rfl⟩, rfl⟩
    · rw [ends]
      exact ⟨⟨rfl, rfl, rfl⟩, rfl⟩
    · rw [ends] at failed
      cases failed

theorem tones_supply (c : Console σ) (word : Int) : (c.supply word).2.tones = c.tones := by
  unfold supply
  split_ifs <;> rfl

/-- A cycle that does not fail carries out its instruction, and then ticks if cycles do. -/
theorem aged_executed (h : c.machine.Consistent) {i : Instruction}
    (executed : c.executed = some i) : Aged (if c.wiring.ticksAfterCycle then 1 else 0)
      { c with machine := c.machine.timed i } c.cycle.console := by
  have executing := executing_of_executed executed
  have success := success_of_executed executed
  obtain ⟨-, inside, -⟩ := (executing_eq_some_iff h.toNominal).mp executing
  obtain ⟨f, -, ends⟩ | ⟨n, done, ends⟩ := cycle_executing h.toNominal executing
  · rw [ends] at success
    cases success
  · have fetched : c.machine.fetched.Consistent := h.fetched inside
    have result : n.Nominal := (fetched.effect (h.advanced inside) done).toNominal
    obtain ⟨delay, sound, tone⟩ := effect_timed fetched.toNominal done
    -- The fetch has moved neither the timers nor the register that sets one.
    have same : (c.machine.fetched.timed i).delay = (c.machine.timed i).delay ∧
        (c.machine.fetched.timed i).sound = (c.machine.timed i).sound ∧
        c.machine.fetched.tone = (c.machine.timed i).tone := by
      cases i <;> exact ⟨rfl, rfl, rfl⟩
    have wiring : (c.fetched.supply c.nextWord).2.wiring = c.wiring := wiring_supply _ _
    have carried : Aged 0 { c with machine := c.machine.timed i }
        { (c.fetched.supply c.nextWord).2 with machine := n } :=
      .still (h.toNominal.timed i)
        ⟨delay.trans same.1, sound.trans same.2.1, tone.trans same.2.2⟩ (tones_supply _ _) wiring
    have settled := Aged.settle (c := { (c.fetched.supply c.nextWord).2 with machine := n }) result
    have together := carried.trans settled
    rw [Nat.zero_add, wiring] at together
    rw [ends]
    exact together

theorem aged_cycle (h : c.machine.Consistent)
    (unset : ¬∃ x, c.executed = some (.setDelay x) ∨ c.executed = some (.setSound x)) :
    Aged (c.ticks [.cycle]) c c.cycle.console := by
  rw [ticks_cycle]
  cases failure : c.cycle.failure? with
  | some e =>
    obtain ⟨timers, tones⟩ := timers_failed h.toNominal failure
    rw [Option.isNone_some, Bool.and_false, if_neg Bool.false_ne_true]
    exact .still h.toNominal timers tones (wiring_cycle c)
  | none =>
    obtain ⟨-, f, failed, -⟩ | ⟨i, -, executed, -⟩ := cycle_executed h.toNominal
    · rw [failure] at failed
      cases failed
    · have same : c.machine.timed i = c.machine := by
        cases i with
        | setDelay x => exact absurd ⟨x, .inl executed⟩ unset
        | setSound x => exact absurd ⟨x, .inr executed⟩ unset
        | _ => rfl
      have aged := aged_executed h executed
      rw [same] at aged
      rw [Option.isNone_none, Bool.and_true]
      exact aged

/-! ## Whole runs -/

/-- Whether a cycle of a run carries out an instruction that sets a timer. -/
def SetsTimer (c : Console σ) (operations : List Operation) : Prop :=
  ∃ before after, operations = before ++ .cycle :: after ∧
    ∃ x, (c.performAll before).executed = some (.setDelay x) ∨
      (c.performAll before).executed = some (.setSound x)

theorem setsTimer_cons (c : Console σ) (operation : Operation) (rest : List Operation) :
    c.SetsTimer (operation :: rest) ↔
      (operation = .cycle ∧
        ∃ x, c.executed = some (.setDelay x) ∨ c.executed = some (.setSound x)) ∨
      (c.perform operation).console.SetsTimer rest :=
  exists_cycle_cons
    (fun d _ => ∃ x, d.executed = some (.setDelay x) ∨ d.executed = some (.setSound x))
    c operation rest

theorem aged_perform (h : c.machine.Consistent) {operation : Operation}
    (continues : operation.continues = true)
    (unset : operation = .cycle →
      ¬∃ x, c.executed = some (.setDelay x) ∨ c.executed = some (.setSound x)) :
    Aged (c.ticks [operation]) c (c.perform operation).console := by
  by_cases cycle : operation = .cycle
  · subst cycle
    exact aged_cycle h (unset rfl)
  · rw [ticks_of_ne c cycle]
    by_cases tick : operation = .tick
    · subst tick
      exact .tick h.toNominal
    · rw [if_neg tick]
      have tones : (c.perform operation).console.tones = c.tones := by
        rw [perform_aside c continues cycle tick]
      exact .still h.toNominal ((attends_perform c continues cycle).timers tick) tones
        (wiring_perform c continues)

theorem aged_performAll (h : c.machine.Consistent) {operations : List Operation}
    (continues : ∀ o ∈ operations, o.continues = true) (unset : ¬c.SetsTimer operations) :
    Aged (c.ticks operations) c (c.performAll operations) := by
  -- From the front, because the timers at the start say how many tones are still to come.
  induction operations generalizing c with
  | nil =>
    have none : c.ticks [] = 0 := by simp [ticks, trace]
    rw [none]
    exact .refl h.toNominal
  | cons operation rest ih =>
    obtain ⟨first, others⟩ := List.forall_mem_cons.mp continues
    rw [setsTimer_cons, not_or, not_and] at unset
    have later := ih (consistent_perform_continues h first) others unset.2
    rw [ticks_cons c first]
    exact (aged_perform h first unset.1).trans later

/-- In a run of a console that a host can reach, with no reset and with no cycle that sets a timer,
every tick counts, the host's and the ones of cycles that do not fail. A cycle that fails never
ticks. One that sets a timer does not fail, and ticks after that if cycles do. -/
theorem timers_account (reached : Reachable c) :
    (∀ operations, (∀ o ∈ operations, o.continues = true) → ¬c.SetsTimer operations →
      Aged (c.ticks operations) c (c.performAll operations)) ∧
    (∀ e, c.cycle.failure? = some e →
      (c.cycle.console.machine.delay = c.machine.delay ∧
        c.cycle.console.machine.sound = c.machine.sound ∧
        c.cycle.console.machine.tone = c.machine.tone) ∧
      c.cycle.console.tones = c.tones) ∧
    ∀ x,
      (c.executing = some (.setDelay x) → c.cycle.failure? = none ∧
        c.cycle.console.machine.delay =
          if c.wiring.ticksAfterCycle then max 0 (c.machine.reg x - 1) else c.machine.reg x) ∧
      (c.executing = some (.setSound x) → c.cycle.failure? = none ∧
        c.cycle.console.machine.sound =
          if c.wiring.ticksAfterCycle then max 0 (c.machine.reg x - 1) else c.machine.reg x) := by
  have consistent := reached.consistent
  have nominal := consistent.toNominal
  refine ⟨fun _ => aged_performAll consistent, fun _ => timers_failed nominal, ?_⟩
  intro x
  have positive := (consistent.octet_reg x).1
  have settled :
      max 0 (c.machine.reg x - ((if c.wiring.ticksAfterCycle then 1 else 0 : Nat) : Int)) =
      if c.wiring.ticksAfterCycle then max 0 (c.machine.reg x - 1) else c.machine.reg x := by
    split_ifs <;> omega
  constructor
  · intro executing
    have set : c.result (.setDelay x) =
        .ok { c.machine.fetched with delay := c.machine.fetched.reg x } := rfl
    have executed := (executed_of_ok nominal executing set).1
    have aged := aged_executed consistent executed
    exact ⟨success_of_executed executed, aged.delay.trans settled⟩
  · intro executing
    have set : c.result (.setSound x) =
        .ok { c.machine.fetched with sound := c.machine.fetched.reg x } := rfl
    have executed := (executed_of_ok nominal executing set).1
    have aged := aged_executed consistent executed
    exact ⟨success_of_executed executed, aged.sound.trans settled⟩

/-- A program sets a register and the sound timer to three, the timer in a cycle that ticks, and
then another register. A tick of the host and one of a cycle sound the two tones that are left. -/
theorem timers_account_sounding :
    let rom : List Byte := [0x60, 0x03, 0xF0, 0x18, 0x61, 0x03]
    let start := ((assemble ⟨true, true⟩ (Tape.repeating #[]) .debug).reset.load rom).console
    let c := start.cycle.console
    let d := c.cycle.console
    let operations := [Operation.tick, .cycle, .press 3]
    let e := d.performAll operations
    (Reachable c ∧ c.executing = some (.setSound 0) ∧ c.machine.reg 0 = 3) ∧ d.machine.sound = 2 ∧
    (Reachable d ∧ (∀ o ∈ operations, o.continues = true) ∧ ¬d.SetsTimer operations) ∧
    e.machine.sound = 0 ∧ e.machine.tone = true ∧ e.tones = d.tones + 2 := by
  intro rom
  have fits : rom.length ≤ programSpace := by decide
  have here := at_reset_load (assemble ⟨true, true⟩ (Tape.repeating #[]) .debug) fits
  have wired := (wired_reset_load (assemble ⟨true, true⟩ (Tape.repeating #[]) .debug) rom).2
  have reached := reachable_reset_load ⟨true, true⟩ (Tape.repeating #[]) .debug rom
  generalize ((assemble ⟨true, true⟩ (Tape.repeating #[]) .debug).reset.load rom).console = start
    at here wired reached ⊢
  dsimp only
  have first : start.executing = some (.setRegister 0 3) :=
    here.executing fits (by decide) (by decide)
  obtain ⟨-, here, three⟩ := here.setRegister first
  rw [← wiring_cycle start] at wired
  replace reached := reached.cycle
  generalize start.cycle.console = c at here wired reached three ⊢
  have second : c.executing = some (.setSound 0) := here.executing fits (by decide) (by decide)
  obtain ⟨-, here⟩ := here.setSound second
  have two : c.cycle.console.machine.sound = 2 := by
    obtain ⟨-, sound⟩ := ((timers_account reached).2.2 0).2 second
    rw [three, wired] at sound
    exact sound
  refine ⟨⟨reached, second, three⟩, two, ?_⟩
  rw [← wiring_cycle c] at wired
  replace reached := reached.cycle
  generalize c.cycle.console = d at here wired reached two ⊢
  have continues : ∀ o ∈ [Operation.tick, .cycle, .press 3], o.continues = true := by decide
  have third : d.tick.executing = some (.setRegister 1 3) :=
    here.tick.executing fits (by decide) (by decide)
  obtain ⟨plain, -⟩ := here.tick.setRegister third
  have done : d.tick.cycle.failure? = none := success_of_executed plain
  have unset : ¬d.SetsTimer [.tick, .cycle, .press 3] := by
    rw [setsTimer_cons, setsTimer_cons, setsTimer_cons]
    rintro (⟨other, -⟩ | ⟨-, x, set⟩ | ⟨other, -⟩ | ⟨before, after, split, -⟩)
    · cases other
    · rw [show (d.perform .tick).console.executed = _ from plain] at set
      simp at set
    · cases other
    · simp at split
  have two' : d.ticks [.tick, .cycle, .press 3] = 2 := by
    simp [ticks, trace, sight, perform, done, wired, assemble]
  have aged := (timers_account reached).1 _ continues unset
  rw [two'] at aged
  refine ⟨⟨reached, continues, unset⟩, ?_, ?_, ?_⟩
  · rw [aged.sound, two]
    rfl
  · rw [aged.tone, two]
    rfl
  · rw [aged.tones, two, wired]
    rfl

end Console

end HexConsole
