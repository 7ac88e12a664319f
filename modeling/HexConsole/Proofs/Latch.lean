import HexConsole.Proofs.Halting
import HexConsole.Proofs.Loading
import HexConsole.Proofs.Quiet

/-!
# The fault latch

A cycle records the fault that it raises, and nothing else records or forgets one but a reset.
Main statement: a machine is halted by a fault exactly if a cycle since the last reset has
raised it, and a halted machine stands still, whatever the host asks for, until it is reset.
-/
namespace HexConsole

namespace Console

open Machine

variable {σ : Type} [RandomSource σ]

/-! ## Recording a fault -/

theorem surroundings_process (c : Console σ) (operand : Int) :
    (c.process operand).console.machine.surroundings = c.machine.surroundings := by
  simp only [process, surroundings_dispatch, machine_supply]

theorem fault_process (c : Console σ) (operand : Int) :
    (c.process operand).console.machine.fault = c.machine.fault :=
  congrArg (·.2.2.2) (surroundings_process c operand)

/-- Between the look and the end of an instruction nothing moves that belongs to the host. -/
theorem surroundings_advance (c : Console σ) :
    c.advance.console.machine.surroundings = c.look.machine.surroundings := by
  simp only [advance]
  cases c.look.machine.fetch with
  | error e => rfl
  | ok word =>
    simp only [surroundings_process, pass_eq]
    rfl

theorem fault_advance (c : Console σ) : c.advance.console.machine.fault = c.machine.fault :=
  congrArg (·.2.2.2) (surroundings_advance c)

/-- The keys are the host's: no cycle moves them. -/
theorem keys_cycle (c : Console σ) : c.cycle.console.machine.keys = c.machine.keys := by
  have still : c.advance.console.machine.keys = c.machine.keys :=
    congrArg (·.1) (surroundings_advance c)
  unfold cycle
  cases c.machine.fault with
  | some f => rfl
  | none =>
    simp only
    cases c.advance.failure? with
    | some e => cases e <;> exact still
    | none =>
      simp only
      rw [machine_settle]
      exact still

/-- A fault stays recorded, or not, in every operation but a reset and a cycle. -/
theorem fault_perform (c : Console σ) {operation : Operation} (reset : operation ≠ .reset)
    (cycle : operation ≠ .cycle) :
    (c.perform operation).console.machine.fault = c.machine.fault := by
  by_cases continues : operation.continues = true
  · rw [(attends_perform c continues cycle).frozen]
  · cases operation with
    | reset => exact absurd rfl reset
    | process operand => exact fault_process c operand
    | _ => exact absurd rfl continues

/-- A cycle ends with the fault that is recorded, if there is one. -/
theorem fault_cycle (c : Console σ) (f : Fault) :
    c.cycle.console.machine.fault = some f ↔ c.cycle.failure? = some (.fault f) := by
  cases running : c.machine.fault with
  | some g => simp [cycle_halted running, running]
  | none =>
    have still : c.advance.console.machine.fault = none := (fault_advance c).trans running
    simp only [cycle, running]
    cases c.advance.failure? with
    | none =>
      have settled := congrArg (·.fault) (machine_settle c.advance.console)
      simp [settled, still]
    | some e => cases e <;> simp [halt, note, still]

theorem fault_of_success {c : Console σ} (done : c.cycle.failure? = none) :
    c.cycle.console.machine.fault = none := by
  cases fault : c.cycle.console.machine.fault with
  | none => rfl
  | some f =>
    rw [(fault_cycle c f).mp fault] at done
    cases done

/-! ## Runs -/

/-- Whether a cycle of a run, with no reset after it, ends with a fault. -/
def Latches (c : Console σ) (operations : List Operation) (f : Fault) : Prop :=
  ∃ before after, operations = before ++ .cycle :: after ∧ .reset ∉ after ∧
    (c.performAll before).cycle.failure? = some (.fault f)

theorem latches_cons (c : Console σ) (operation : Operation) (rest : List Operation) (f : Fault) :
    c.Latches (operation :: rest) f ↔
      (operation = .cycle ∧ .reset ∉ rest ∧ c.cycle.failure? = some (.fault f)) ∨
        (c.perform operation).console.Latches rest f :=
  exists_cycle_cons
    (fun d after => Operation.reset ∉ after ∧ d.cycle.failure? = some (.fault f)) c operation rest

/-- A fault is recorded at the end of a run if a cycle has latched it, or if it was there before
and has not been cleared. -/
theorem fault_performAll (c : Console σ) (operations : List Operation) (f : Fault) :
    (c.performAll operations).machine.fault = some f ↔
      c.Latches operations f ∨ (c.machine.fault = some f ∧ .reset ∉ operations) := by
  -- From the front, because a fault that is there at the start counts until the first reset.
  induction operations generalizing c with
  | nil => simp [performAll, Latches]
  | cons operation rest ih =>
    have later := ih (c.perform operation).console
    change (c.performAll (operation :: rest)).machine.fault = some f ↔ _ at later
    rw [later, latches_cons]
    by_cases cycle : operation = .cycle
    · subst cycle
      have again : c.machine.fault = some f → c.cycle.failure? = some (.fault f) := by
        intro halted
        rw [cycle_halted halted]
      simp only [perform, fault_cycle, List.mem_cons, reduceCtorEq, false_or, true_and]
      grind
    · by_cases reset : operation = .reset
      · subst reset
        simp [perform, initial, poweredOff]
      · have other : Operation.reset ≠ operation := fun same => reset same.symm
        rw [fault_perform c reset cycle]
        simp [cycle, other]

/-! ## Standing still -/

/-- What a host can do, one operation after the other, to a machine that is halted: a cycle
repeats the fault and changes nothing at all, and the other operations do what they do between
cycles. -/
structure StandsStill (f : Fault) (c : Console σ) (operation : Operation) : Prop where
  repeats : operation = .cycle → c.perform operation = ⟨c, some (.fault f)⟩
  attends : Attends operation c.machine (c.perform operation).console.machine

theorem standsStill {c : Console σ} {f : Fault} (halted : c.machine.fault = some f)
    {operation : Operation} (continues : operation.continues = true) :
    StandsStill f c operation := by
  by_cases cycle : operation = .cycle
  · subst cycle
    have ends : c.perform .cycle = ⟨c, some (.fault f)⟩ := cycle_halted halted
    refine ⟨fun _ => ends, ?_⟩
    rw [ends]
    exact .refl _ _
  · exact ⟨fun same => absurd same cycle, attends_perform c continues cycle⟩

theorem halted_performAll {c : Console σ} {f : Fault} (halted : c.machine.fault = some f)
    {operations : List Operation} (continues : ∀ o ∈ operations, o.continues = true) :
    (c.performAll operations).machine.fault = some f := by
  refine (fault_performAll c operations f).mpr (.inr ⟨halted, ?_⟩)
  intro reset
  cases continues _ reset

theorem frozenTo_performAll {c : Console σ} {f : Fault} (halted : c.machine.fault = some f)
    {operations : List Operation} (continues : ∀ o ∈ operations, o.continues = true) :
    FrozenTo c.machine (c.performAll operations).machine := by
  induction operations generalizing c with
  | nil => rfl
  | cons operation rest ih =>
    obtain ⟨first, others⟩ := List.forall_mem_cons.mp continues
    have attends := (standsStill halted first).attends
    have still : (c.perform operation).console.machine.fault = some f := by
      rw [attends.frozen]
      exact halted
    exact attends.frozen.trans (ih still others)

/-- The memory of a machine that was never reset holds no instruction. -/
theorem cycle_failure_assembled (wiring : Wiring) (source : σ) (threshold : Level) :
    (assemble wiring source threshold).cycle.failure? =
      some (.fault (.unknownInstruction 0 0)) := by
  let c := assemble wiring source threshold
  have word : c.nextWord = 0 := by
    simp [c, nextWord, assemble, wordAt, byteAt, poweredOff, memorySize]
  have refused : c.fetched.attempt c.nextWord = .error (.unknownInstruction 0 0) := by
    rw [attempt_fetched, word]
    rfl
  obtain ⟨past, -⟩ | ⟨-, f, raised, ends⟩ | ⟨-, n, done, -⟩ :=
    cycle_cases (c := c) consistent_poweredOff.toNominal rfl
  · cases past
  · rw [refused] at raised
    cases raised
    rw [ends]
  · rw [refused] at done
    cases done

/-- After any run from the start the recorded fault is the one that a cycle has raised since the
last reset. Loading, fetching and dispatching neither record a fault nor forget it. From the
moment it is recorded every cycle repeats it, and the machine stands still until a reset. -/
theorem fault_latch (wiring : Wiring) (source : σ) (threshold : Level) :
    (∀ operations f,
      ((assemble wiring source threshold).performAll operations).machine.fault = some f ↔
        (assemble wiring source threshold).Latches operations f) ∧
    (∀ (c : Console σ) operation, operation ≠ .reset → operation ≠ .cycle →
      (c.perform operation).console.machine.fault = c.machine.fault) ∧
    ∀ (c : Console σ) f operations, c.machine.fault = some f →
      (∀ o ∈ operations, o.continues = true) →
      (∀ before operation after, operations = before ++ operation :: after →
        StandsStill f (c.performAll before) operation) ∧
      FrozenTo c.machine (c.performAll operations).machine ∧
      ((c.performAll operations).perform .reset).console.machine.fault = none := by
  refine ⟨?_, fun c _ reset cycle => fault_perform c reset cycle, ?_⟩
  · intro operations f
    rw [fault_performAll]
    simp [assemble, poweredOff]
  · intro c f operations halted continues
    refine ⟨?_, frozenTo_performAll halted continues, congrArg Machine.fault (machine_reset _)⟩
    rintro before operation after rfl
    rw [List.forall_mem_append, List.forall_mem_cons] at continues
    obtain ⟨earlier, now, -⟩ := continues
    exact standsStill (halted_performAll halted earlier) now

/-- A machine that was never reset halts in its first cycle. A tick and a program do not make it
go on. -/
theorem fault_latch_assembled :
    let halted := (assemble ⟨true, true⟩ (Tape.repeating #[]) .debug).performAll [.cycle]
    let f : Fault := .unknownInstruction 0 0
    halted.machine.fault = some f ∧
      (∀ o ∈ [Operation.tick, .load [0x12], .cycle], o.continues = true) ∧
      StandsStill f (halted.performAll [.tick, .load [0x12]]) .cycle ∧
      FrozenTo halted.machine (halted.performAll [.tick, .load [0x12], .cycle]).machine := by
  obtain ⟨recorded, -, still⟩ := fault_latch ⟨true, true⟩ (Tape.repeating #[]) .debug
  have fault := (recorded [.cycle] (.unknownInstruction 0 0)).mpr
    ⟨[], [], rfl, List.not_mem_nil, cycle_failure_assembled _ _ _⟩
  generalize (assemble ⟨true, true⟩ (Tape.repeating #[]) .debug).performAll [.cycle] = halted
    at fault ⊢
  have continues : ∀ o ∈ [Operation.tick, .load [0x12], .cycle], o.continues = true := by decide
  obtain ⟨steps, frozen, -⟩ := still halted _ _ fault continues
  exact ⟨fault, continues, steps [.tick, .load [0x12]] .cycle [] rfl, frozen⟩

end Console

end HexConsole
