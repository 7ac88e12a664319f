import HexConsole.Proofs.Consistent
import HexConsole.Proofs.Cycle

/-!
# Reachable consoles

A host resets a console, loads programs, moves keys, acknowledges frames, ticks the timers
and runs cycles, in any order and whatever fails on the way. Main statement: none of this
takes the machine out of its ranges.
-/
namespace HexConsole

/-- The operations of a host that leaves fetching and dispatching to the cycle. -/
def Operation.ordinary : Operation → Bool
  | fetch => false
  | process _ => false
  | _ => true

namespace Machine

variable {m : Machine}

theorem consistent_poweredOff : poweredOff.Consistent where
  memory := by simp [poweredOff]
  registers := by simp [poweredOff]
  octets v hv := by
    have zero : v = 0 := (Array.mem_replicate.mp hv).2
    subst zero
    decide
  index := by decide
  counter := by decide
  stack a ha := by
    have zero : a = 0 := (Vector.mem_replicate.mp ha).2
    omega
  depth := by decide
  delay := by decide
  sound := by decide
  operand := by decide
  operandAddress := by decide
  fault f hf := by cases hf

theorem consistent_initial : initial.Consistent :=
  { consistent_poweredOff with
    memory := size_glyphMemory
    counter := by decide
    operandAddress := by decide }

namespace Consistent

theorem withRedraw (h : m.Consistent) (redraw : Bool) : { m with redraw }.Consistent :=
  { h with }

theorem withFault (h : m.Consistent) {f : Fault} (kind : f.kind ∈ FaultKind.halting) :
    { m with fault := some f }.Consistent := by
  have latched : ∀ g ∈ some f, g.kind ∈ FaultKind.halting := by simpa using kind
  exact { h with fault := latched }

theorem looking (h : m.Consistent) : { m with operandAddress := m.counter }.Consistent :=
  { h with operandAddress := h.counter }

theorem tick (h : m.Consistent) : m.tick.Consistent := by
  have falling {v : Int} (fits : Octet v) : Octet (if v = 0 then 0 else v - 1) := by
    obtain ⟨low, high⟩ := fits
    split_ifs
    · decide
    · exact ⟨by omega, by omega⟩
  exact { h with delay := falling h.delay, sound := falling h.sound }

theorem load {n : Machine} (h : m.Consistent) {rom : List Byte} (loaded : m.load rom = .ok n) :
    n.Consistent := by
  unfold Machine.load refusal? at loaded
  split_ifs at loaded with large
  cases loaded
  have fits : programStart + rom.toArray.size ≤ m.memory.size := by
    rw [h.memory, List.size_toArray]
    unfold programSpace programStart memorySize at *
    omega
  apply h.withMemory
  rw [← h.memory, ← size_splice fits]
  simp

theorem setKeys {n : Machine} (h : m.Consistent) {states : List Bool}
    (accepted : m.setKeys states = .ok n) : n.Consistent := by
  unfold Machine.setKeys at accepted
  split_ifs at accepted
  cases accepted
  exact { h with }

theorem setKey {n : Machine} (h : m.Consistent) {key : Int} {down : Bool}
    (accepted : m.setKey key down = .ok n) : n.Consistent := by
  unfold Machine.setKey at accepted
  split at accepted <;> cases accepted
  exact { h with }

theorem fetched (h : m.Consistent) (inside : m.counter ≤ 4094) : m.fetched.Consistent :=
  { h.toNominal.fetched inside with
    operand := m.wordAt_bounds _
    operandAddress := h.counter
    fault := h.fault }

theorem obeyed {n : Machine} (h : m.Consistent) (advanced : 2 ≤ m.counter ∧ m.counter ≤ 4096)
    {byte operand : Int} (done : m.obeyed byte operand = .ok n) : n.Consistent := by
  unfold Machine.obeyed at done
  cases decoded : Instruction.decode operand with
  | none => rw [decoded] at done; cases done
  | some i => rw [decoded] at done; exact h.effect advanced done

end Consistent

/-- A machine that runs and has fetched a word knows where the word is from. -/
theorem Nominal.consistent_fetched (h : m.Nominal) (running : m.fault = none)
    (inside : m.counter ≤ 4094) : m.fetched.Consistent := by
  obtain ⟨low, high⟩ := h.counter
  have latched : ∀ f ∈ m.fault, f.kind ∈ FaultKind.halting := by simp [running]
  exact { h.fetched inside with
    operand := m.wordAt_bounds _
    operandAddress := ⟨low, high⟩
    fault := latched }

end Machine

namespace Console

open Machine

variable {σ : Type}

theorem machine_tick (c : Console σ) : c.tick.machine = c.machine.tick := by
  simp only [tick]
  split_ifs <;> rfl

theorem consistent_settle {c : Console σ} (h : c.machine.Consistent) :
    c.settle.machine.Consistent := by
  unfold settle
  split_ifs
  · rw [machine_tick]
    exact h.tick
  · exact h

theorem consistent_update {c : Console σ} (h : c.machine.Consistent)
    {result : Except Failure Machine} (consistent : ∀ m, result = .ok m → m.Consistent) :
    (c.update result).console.machine.Consistent := by
  cases result with
  | ok m => exact consistent m rfl
  | error e => exact h

variable [RandomSource σ]

/-- What the fetched word does, in terms of the machine alone. -/
theorem attempt_fetched (c : Console σ) :
    c.fetched.attempt c.nextWord =
      c.machine.fetched.obeyed (c.fetched.supply c.nextWord).1 c.nextWord := rfl

theorem attempt_origin {c : Console σ} {f : Fault}
    (raised : c.fetched.attempt c.nextWord = .error f) :
    f.origin? = some (c.nextWord, c.machine.counter) :=
  obeyed_origin rfl raised

theorem consistent_cycle {c : Console σ} (h : c.machine.Consistent) :
    c.cycle.console.machine.Consistent := by
  cases halted : c.machine.fault with
  | some f =>
    rw [cycle_halted halted]
    exact h
  | none =>
    obtain ⟨-, ends⟩ | ⟨inside, f, raised, ends⟩ | ⟨inside, n, done, ends⟩ :=
      cycle_cases h.toNominal halted <;> rw [ends]
    · exact h.looking.withFault (Fault.kind_mem_halting (f := c.endFault) rfl)
    · exact (h.fetched inside).withFault (Fault.kind_mem_halting (attempt_origin raised))
    · rw [attempt_fetched] at done
      exact consistent_settle ((h.fetched inside).obeyed (h.advanced inside) done)

/-- A cycle leaves a nominal machine nominal. -/
theorem nominal_cycle {c : Console σ} (h : c.machine.Nominal) :
    c.cycle.console.machine.Nominal := by
  cases halted : c.machine.fault with
  | some f =>
    rw [cycle_halted halted]
    exact h
  | none =>
    obtain ⟨-, ends⟩ | ⟨inside, f, -, ends⟩ | ⟨inside, n, done, ends⟩ := cycle_cases h halted <;>
      rw [ends]
    · exact { h with }
    · exact { h.fetched inside with }
    · rw [attempt_fetched] at done
      have consistent := (h.consistent_fetched halted inside).obeyed (h.advanced inside) done
      exact (consistent_settle (c := { (c.fetched.supply c.nextWord).2 with machine := n })
        consistent).toNominal

omit [RandomSource σ] in
theorem consistent_reset (c : Console σ) : c.reset.machine.Consistent := by
  rw [machine_reset]
  exact consistent_initial

/-- No operation of a host, failed or not, takes a consistent machine out of its ranges. -/
theorem consistent_perform {c : Console σ} (h : c.machine.Consistent) {operation : Operation}
    (ordinary : operation.ordinary = true) :
    (c.perform operation).console.machine.Consistent := by
  cases operation with
  | reset => exact consistent_reset c
  | load rom =>
    simp only [perform, load]
    split
    · exact h.load ‹_›
    · exact h
  | setKeys states => exact consistent_update h fun _ accepted => h.setKeys accepted
  | press key => exact consistent_update h fun _ accepted => h.setKey accepted
  | release key => exact consistent_update h fun _ accepted => h.setKey accepted
  | clearRedraw => exact h.withRedraw false
  | tick =>
    simp only [perform, machine_tick]
    exact h.tick
  | fetch => cases ordinary
  | process operand => cases ordinary
  | cycle => exact consistent_cycle h

/-- The consoles that a host can reach. -/
inductive Reachable : Console σ → Prop
  | assembled (wiring : Wiring) (source : σ) (threshold : Level) :
    Reachable (.assemble wiring source threshold)
  | performed {c : Console σ} {operation : Operation} (before : Reachable c)
      (ordinary : operation.ordinary = true) : Reachable (c.perform operation).console

theorem Reachable.performAll {c : Console σ} (h : Reachable c) {operations : List Operation}
    (ordinary : ∀ o ∈ operations, o.ordinary = true) : Reachable (c.performAll operations) := by
  induction operations generalizing c with
  | nil => exact h
  | cons operation rest ih =>
    obtain ⟨first, others⟩ := List.forall_mem_cons.mp ordinary
    exact ih (h.performed first) others

theorem Reachable.cycle {c : Console σ} (h : Reachable c) : Reachable c.cycle.console := by
  have ordinary : Operation.cycle.ordinary = true := rfl
  exact h.performed ordinary

/-- A console is reachable if it is left by a list of operations. -/
theorem reachable_iff {c : Console σ} :
    Reachable c ↔ ∃ wiring source threshold operations, (∀ o ∈ operations, o.ordinary = true) ∧
      c = (assemble wiring source threshold).performAll operations := by
  constructor
  · intro h
    induction h with
    | assembled wiring source threshold => exact ⟨wiring, source, threshold, [], by simp, rfl⟩
    | @performed c operation _ ordinary ih =>
      obtain ⟨wiring, source, threshold, operations, all, rfl⟩ := ih
      refine ⟨wiring, source, threshold, operations ++ [operation], ?_, ?_⟩
      · simpa [or_imp, forall_and] using ⟨all, ordinary⟩
      · simp [Console.performAll]
  · rintro ⟨wiring, source, threshold, operations, all, rfl⟩
    exact (Reachable.assembled wiring source threshold).performAll all

theorem Reachable.consistent {c : Console σ} (h : Reachable c) : c.machine.Consistent := by
  induction h with
  | assembled => exact consistent_poweredOff
  | performed _ ordinary ih => exact consistent_perform ih ordinary

/-- Whatever a host asks for, and whichever of it fails, every table of the machine keeps its
size and every cell, pointer and timer its range. -/
theorem ranges_after_operations (wiring : Wiring) (source : σ) (threshold : Level)
    (operations : List Operation) (ordinary : ∀ o ∈ operations, o.ordinary = true) :
    let m := ((assemble wiring source threshold).performAll operations).machine
    m.Consistent ∧ m.stack.size = 16 ∧ m.keys.size = 16 ∧ m.frame.cells.size = 2048 ∧
      ∀ p ∈ m.frame.cells, p.toNat = 0 ∨ p.toNat = 1 := by
  have reached := reachable_iff.mpr ⟨wiring, source, threshold, operations, ordinary, rfl⟩
  refine ⟨reached.consistent, rfl, rfl, rfl, ?_⟩
  intro p _
  cases p with
  | false => exact .inl rfl
  | true => exact .inr rfl

/-- The third of these operations names no key, and the cycle before it meets a word that is
not an instruction. -/
theorem ranges_after_failures :
    (∀ o ∈ [Operation.load [0x50, 0x01], .cycle, .press 20, .reset, .cycle], o.ordinary = true) ∧
    let m := ((assemble ⟨true, false⟩ (Tape.repeating #[300]) .debug).performAll
      [.load [0x50, 0x01], .cycle, .press 20, .reset, .cycle]).machine
    m.Consistent ∧ m.stack.size = 16 ∧ m.keys.size = 16 ∧ m.frame.cells.size = 2048 ∧
      ∀ p ∈ m.frame.cells, p.toNat = 0 ∨ p.toNat = 1 :=
  ⟨by decide, ranges_after_operations _ _ _ _ (by decide)⟩

end Console

end HexConsole
