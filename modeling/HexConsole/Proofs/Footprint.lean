import HexConsole.Proofs.Reachable

/-!
# Footprints

What an instruction, a cycle and an operation of a host may change, each said once. Only two
instructions change pixels and only two open or close calls; a fault changes neither. An
operation that lets the machine stand still changes the keys, the timers, the program or the
request for a redraw, and nothing that the machine computes with.
-/
namespace HexConsole

namespace Instruction

/-- Whether an instruction may change pixels. It then asks for a redraw as well. -/
def paints : Instruction → Bool
  | clearScreen => true
  | draw _ _ _ => true
  | _ => false

/-- Whether an instruction opens or closes a call. -/
def nests : Instruction → Bool
  | leave => true
  | call _ => true
  | _ => false

end Instruction

namespace Machine

variable {m n : Machine}

/-! ## Instructions -/

/-- What an instruction leaves alone on its way from one machine to another. -/
structure Footprint (i : Instruction) (m n : Machine) : Prop where
  screen : i.paints = false → n.frame = m.frame ∧ n.redraw = m.redraw
  request : i.paints = true → n.redraw = true
  calls : i.nests = false → n.depth = m.depth ∧ n.stack = m.stack

/-- An instruction that changes nothing but registers, counter, index, memory and timers. -/
theorem Footprint.of_computing {i : Instruction} (plain : i.paints = false)
    (screen : n.frame = m.frame ∧ n.redraw = m.redraw)
    (calls : n.depth = m.depth ∧ n.stack = m.stack) : Footprint i m n where
  screen _ := screen
  request painting := by rw [plain] at painting; cases painting
  calls _ := calls

theorem Footprint.of_painting {i : Instruction} (painting : i.paints = true)
    (request : n.redraw = true) (calls : n.depth = m.depth ∧ n.stack = m.stack) :
    Footprint i m n where
  screen plain := by rw [painting] at plain; cases plain
  request _ := request
  calls _ := calls

theorem Footprint.of_nesting {i : Instruction} (plain : i.paints = false)
    (nesting : i.nests = true) (screen : n.frame = m.frame ∧ n.redraw = m.redraw) :
    Footprint i m n where
  screen _ := screen
  request painting := by rw [plain] at painting; cases painting
  calls flat := by rw [nesting] at flat; cases flat

theorem Footprint.skippedIf {i : Instruction} (plain : i.paints = false) (m : Machine)
    (condition : Bool) : Footprint i m (m.skippedIf condition) := by
  cases condition <;> exact .of_computing plain ⟨rfl, rfl⟩ ⟨rfl, rfl⟩

theorem Footprint.withMemory {i : Instruction} (plain : i.paints = false) (m : Machine)
    (memory : Array Byte) : Footprint i m { m with memory } :=
  .of_computing plain ⟨rfl, rfl⟩ ⟨rfl, rfl⟩

theorem Footprint.withRegisters {i : Instruction} (plain : i.paints = false) (m : Machine)
    (registers : Array Int) : Footprint i m { m with registers } :=
  .of_computing plain ⟨rfl, rfl⟩ ⟨rfl, rfl⟩

theorem effect_footprint {byte : Int} {i : Instruction} (done : m.effect byte i = .ok n) :
    Footprint i m n := by
  cases i with
  | clearScreen =>
    cases done
    exact .of_painting rfl rfl ⟨rfl, rfl⟩
  | draw x y height =>
    obtain ⟨-, rfl⟩ := withinMemory_eq_ok_iff.mp done
    exact .of_painting rfl rfl ⟨rfl, rfl⟩
  | leave | call =>
    simp only [effect] at done
    split_ifs at done
    cases done
    exact .of_nesting rfl rfl ⟨rfl, rfl⟩
  | skipIfEquals | skipUnlessEquals | skipIfSame | skipUnlessSame =>
    cases done
    exact .skippedIf rfl m _
  | skipIfPressed x =>
    obtain ⟨-, rfl⟩ := withKey_eq_ok_iff.mp done
    exact .skippedIf rfl m _
  | skipUnlessPressed x =>
    rw [effect, withKey_eq_ok_iff] at done
    obtain ⟨-, rfl⟩ := done
    exact .skippedIf rfl m _
  | compute how x y =>
    cases done
    cases how <;> exact .of_computing rfl ⟨rfl, rfl⟩ ⟨rfl, rfl⟩
  | awaitKey x =>
    simp only [effect] at done
    split at done <;> cases done <;> exact .of_computing rfl ⟨rfl, rfl⟩ ⟨rfl, rfl⟩
  | storeDecimal | storeRegisters =>
    obtain ⟨-, rfl⟩ := withinMemory_eq_ok_iff.mp done
    exact .withMemory rfl m _
  | loadRegisters last =>
    obtain ⟨-, rfl⟩ := withinMemory_eq_ok_iff.mp done
    exact .withRegisters rfl m _
  | _ =>
    cases done
    exact .of_computing rfl ⟨rfl, rfl⟩ ⟨rfl, rfl⟩

/-- The faults of an instruction: a return without a call, a call too many, and cells or keys
that are not there. -/
theorem effect_error_cases {byte : Int} {i : Instruction} {f : Fault}
    (raised : m.effect byte i = .error f) :
    (i = .leave ∧ m.depth = 0 ∧ f = .stackUnderflow m.operand m.operandAddress) ∨
    (∃ target, i = .call target ∧ m.depth = stackDepth ∧
      f = .stackOverflow m.operand m.operandAddress) ∨
    f.kind = .outOfBounds := by
  cases i with
  | leave =>
    simp only [effect] at raised
    split_ifs at raised with empty
    cases raised
    exact .inl ⟨rfl, empty, rfl⟩
  | call target =>
    simp only [effect] at raised
    split_ifs at raised with full
    cases raised
    exact .inr (.inl ⟨target, rfl, full, rfl⟩)
  | draw | storeDecimal | storeRegisters | loadRegisters =>
    obtain ⟨-, -, rfl⟩ := withinMemory_eq_error_iff.mp raised
    exact .inr (.inr rfl)
  | skipIfPressed x =>
    rw [effect, withKey_eq_error_iff] at raised
    rw [raised.2]
    exact .inr (.inr rfl)
  | skipUnlessPressed x =>
    rw [effect, withKey_eq_error_iff] at raised
    rw [raised.2]
    exact .inr (.inr rfl)
  | awaitKey x =>
    simp only [effect] at raised
    split at raised <;> cases raised
  | _ => cases raised

end Machine

/-- The operations of a host that neither starts the machine anew nor dispatches past the
cycle. -/
def Operation.continues : Operation → Bool
  | reset => false
  | process _ => false
  | _ => true

/-- Whether an operation copies a program to memory. -/
def Operation.loads : Operation → Bool
  | load _ => true
  | _ => false

namespace Console

open Machine

variable {σ : Type}

/-! ## Cycles -/

/-- The instruction that the next cycle carries out or refuses. There is none if the machine
is halted, if it has no word to fetch, or if the word is not an instruction. -/
def executing (c : Console σ) : Option Instruction :=
  match c.machine.fault, c.machine.fetch with
  | none, .ok word => Instruction.decode word
  | _, _ => none

theorem executing_eq_some_iff {c : Console σ} (h : c.machine.Nominal) {i : Instruction} :
    c.executing = some i ↔ c.machine.fault = none ∧ c.machine.counter ≤ 4094 ∧
      Instruction.decode c.nextWord = some i := by
  unfold executing
  rw [fetch_eq h]
  by_cases past : 4094 < c.machine.counter
  · simp [past, show ¬c.machine.counter ≤ 4094 by omega]
  · rw [if_neg past]
    cases c.machine.fault <;> simp [show c.machine.counter ≤ 4094 by omega, nextWord]

/-- Ticking at the end of a cycle changes the timers and the tone. -/
theorem machine_settle (c : Console σ) :
    c.settle.machine = { c.machine with
      delay := c.settle.machine.delay
      sound := c.settle.machine.sound
      tone := c.settle.machine.tone } := by
  unfold settle
  split_ifs
  · rw [machine_tick]
    rfl
  · rfl

theorem tick_wired (c : Console σ) : c.tick.source = c.source ∧ c.tick.wiring = c.wiring := by
  simp only [tick]
  split_ifs <;> exact ⟨rfl, rfl⟩

theorem settle_wired (c : Console σ) :
    c.settle.source = c.source ∧ c.settle.wiring = c.wiring := by
  unfold settle
  split_ifs
  · exact tick_wired c
  · exact ⟨rfl, rfl⟩

theorem executing_halted {c : Console σ} {f : Fault} (halted : c.machine.fault = some f) :
    c.executing = none := by
  simp only [executing, halted]

variable [RandomSource σ]

/-- The machine after the next cycle's instruction, or the fault that it raises. -/
def result (c : Console σ) (i : Instruction) : Except Fault Machine :=
  c.machine.fetched.effect (c.fetched.supply c.nextWord).1 i

/-- A cycle with an instruction does what the instruction does. -/
theorem cycle_executing {c : Console σ} (h : c.machine.Nominal) {i : Instruction}
    (executing : c.executing = some i) :
    (∃ f, c.result i = .error f ∧ c.cycle = ⟨c.fetched.halted f, some (.fault f)⟩) ∨
    (∃ n, c.result i = .ok n ∧
      c.cycle = ⟨{ (c.fetched.supply c.nextWord).2 with machine := n }.settle, none⟩) := by
  obtain ⟨running, inside, decoded⟩ := (executing_eq_some_iff h).mp executing
  have attempted : c.fetched.attempt c.nextWord = c.result i := by
    rw [attempt_fetched, obeyed, decoded]
    rfl
  rw [← attempted]
  obtain ⟨past, -⟩ | ⟨-, f, raised, ends⟩ | ⟨-, n, done, ends⟩ := cycle_cases h running
  · omega
  · exact .inl ⟨f, raised, ends⟩
  · exact .inr ⟨n, done, ends⟩

theorem cycle_of_error {c : Console σ} (h : c.machine.Nominal) {i : Instruction}
    (executing : c.executing = some i) {f : Fault} (refused : c.result i = .error f) :
    c.cycle = ⟨c.fetched.halted f, some (.fault f)⟩ := by
  obtain ⟨g, raised, ends⟩ | ⟨n, done, -⟩ := cycle_executing h executing
  · rw [refused] at raised
    cases raised
    exact ends
  · rw [refused] at done
    cases done

theorem cycle_of_ok {c : Console σ} (h : c.machine.Nominal) {i : Instruction}
    (executing : c.executing = some i) {n : Machine} (done : c.result i = .ok n) :
    c.cycle = ⟨{ (c.fetched.supply c.nextWord).2 with machine := n }.settle, none⟩ := by
  obtain ⟨f, raised, -⟩ | ⟨other, ended, ends⟩ := cycle_executing h executing
  · rw [done] at raised
    cases raised
  · rw [done] at ended
    cases ended
    exact ends

/-- A cycle without an instruction has a fault: the one that halted the machine, or else a
word that is missing or unknown. -/
theorem cycle_idle {c : Console σ} (h : c.machine.Nominal) (idle : c.executing = none) :
    (∃ f, c.machine.fault = some f ∧ c.cycle = ⟨c, some (.fault f)⟩) ∨
    (∃ f, f.kind ∈ [FaultKind.outOfBounds, FaultKind.unknownInstruction] ∧
      c.cycle.failure? = some (.fault f) ∧
      (c.cycle.console = c.look.halted f ∨ c.cycle.console = c.fetched.halted f)) := by
  cases running : c.machine.fault with
  | some f => exact .inl ⟨f, rfl, cycle_halted running⟩
  | none =>
    right
    -- A fetched word that is an instruction would not leave the cycle idle.
    have undecoded (inside : c.machine.counter ≤ 4094) : c.fetched.attempt c.nextWord =
        .error (.unknownInstruction c.nextWord c.machine.counter) := by
      cases decoded : Instruction.decode c.nextWord with
      | some i =>
        have executing := (executing_eq_some_iff h).mpr ⟨running, inside, decoded⟩
        rw [idle] at executing
        cases executing
      | none =>
        rw [attempt_fetched, obeyed, decoded]
        rfl
    obtain ⟨-, ends⟩ | ⟨inside, f, raised, ends⟩ | ⟨inside, n, done, -⟩ := cycle_cases h running
    · rw [ends]
      exact ⟨c.endFault, by simp [endFault, Fault.kind], rfl, .inl rfl⟩
    · rw [undecoded inside] at raised
      cases raised
      rw [ends]
      exact ⟨_, by simp [Fault.kind], rfl, .inr rfl⟩
    · rw [undecoded inside] at done
      cases done

/-- The instruction that the next cycle carries out. -/
def executed (c : Console σ) : Option Instruction :=
  match c.cycle.failure? with
  | some _ => none
  | none => c.executing

/-- Whether the next cycle carries out an instruction that paints. -/
def paints (c : Console σ) : Bool := c.executed.any Instruction.paints

theorem executed_of_failure {c : Console σ} {e : Failure} (failed : c.cycle.failure? = some e) :
    c.executed = none := by
  simp only [executed, failed]

theorem executed_of_success {c : Console σ} (done : c.cycle.failure? = none) :
    c.executed = c.executing := by
  simp only [executed, done]

theorem success_of_executed {c : Console σ} {i : Instruction} (executed : c.executed = some i) :
    c.cycle.failure? = none := by
  cases failure : c.cycle.failure? with
  | none => rfl
  | some e =>
    rw [executed_of_failure failure] at executed
    cases executed

theorem executing_of_executed {c : Console σ} {i : Instruction} (executed : c.executed = some i) :
    c.executing = some i := by
  rwa [executed_of_success (success_of_executed executed)] at executed

/-- An instruction that has no fault is carried out, and but for a tick its machine is left. -/
theorem executed_of_ok {c : Console σ} (h : c.machine.Nominal) {i : Instruction}
    (executing : c.executing = some i) {n : Machine} (done : c.result i = .ok n) :
    c.executed = some i ∧ c.cycle.console.machine = { n with
      delay := c.cycle.console.machine.delay
      sound := c.cycle.console.machine.sound
      tone := c.cycle.console.machine.tone } := by
  have ends := cycle_of_ok h executing done
  refine ⟨?_, ?_⟩
  · rw [executed_of_success (by rw [ends]), executing]
  · rw [ends]
    exact machine_settle _

/-- Either a cycle has carried out nothing, and but for the trace of a fault nothing has changed,
or it has carried out an instruction, and but for a tick its machine is the instruction's. -/
theorem cycle_executed {c : Console σ} (h : c.machine.Nominal) :
    (c.executed = none ∧ ∃ f, c.cycle.failure? = some (.fault f) ∧
      c.cycle.console.machine = { c.machine with
        counter := c.cycle.console.machine.counter
        operand := c.cycle.console.machine.operand
        operandAddress := c.cycle.console.machine.operandAddress
        fault := some f }) ∨
    (∃ i n, c.executed = some i ∧ c.cycle.failure? = none ∧ c.result i = .ok n ∧
      c.cycle.console.machine = { n with
        delay := c.cycle.console.machine.delay
        sound := c.cycle.console.machine.sound
        tone := c.cycle.console.machine.tone }) := by
  cases executing : c.executing with
  | none =>
    left
    obtain ⟨f, halted, ends⟩ | ⟨f, -, failed, ends⟩ := cycle_idle h executing
    · refine ⟨executed_of_failure (e := .fault f) (by rw [ends]), f, by rw [ends], ?_⟩
      rw [ends, ← halted]
    · refine ⟨executed_of_failure failed, f, failed, ?_⟩
      obtain ends | ends := ends <;> rw [ends] <;> rfl
  | some i =>
    obtain ⟨f, -, ends⟩ | ⟨n, done, ends⟩ := cycle_executing h executing
    · left
      refine ⟨executed_of_failure (e := .fault f) (by rw [ends]), f, by rw [ends], ?_⟩
      rw [ends]
      rfl
    · right
      obtain ⟨executed, machine⟩ := executed_of_ok h executing done
      exact ⟨i, n, executed, success_of_executed executed, done, machine⟩

/-- The screen changes only in cycles that paint, and these ask for a redraw. -/
theorem cycle_screen {c : Console σ} (h : c.machine.Nominal) :
    (c.paints = true → c.cycle.console.machine.redraw = true) ∧
    (c.paints = false → c.cycle.console.machine.frame = c.machine.frame ∧
      c.cycle.console.machine.redraw = c.machine.redraw) := by
  unfold paints
  obtain ⟨nothing, f, -, ends⟩ | ⟨i, n, executed, -, done, ends⟩ := cycle_executed h
  · rw [nothing, ends]
    exact ⟨fun painting => (Bool.false_ne_true painting).elim, fun _ => ⟨rfl, rfl⟩⟩
  · have footprint := effect_footprint done
    rw [executed, ends]
    exact ⟨footprint.request, footprint.screen⟩

/-! ## Operations of a host -/

/-- Two machines that differ at most in memory, timers, tone, keys and the request for a
redraw. -/
abbrev FrozenTo (m n : Machine) : Prop :=
  n = { m with
    memory := n.memory
    delay := n.delay
    sound := n.sound
    tone := n.tone
    keys := n.keys
    redraw := n.redraw }

theorem FrozenTo.trans {m n k : Machine} (first : FrozenTo m n) (second : FrozenTo n k) :
    FrozenTo m k := by
  rw [second, first]

/-- What an operation between cycles leaves alone on its way from one machine to another. -/
structure Attends (operation : Operation) (m n : Machine) : Prop where
  frozen : FrozenTo m n
  memory : operation.loads = false → n.memory = m.memory
  timers : operation ≠ .tick → n.delay = m.delay ∧ n.sound = m.sound ∧ n.tone = m.tone

theorem Attends.refl (operation : Operation) (m : Machine) : Attends operation m m :=
  ⟨rfl, fun _ => rfl, fun _ => ⟨rfl, rfl, rfl⟩⟩

/-- Between cycles a host loads programs, ticks, moves keys and acknowledges frames. -/
theorem attends_perform (c : Console σ) {operation : Operation}
    (continues : operation.continues = true) (between : operation ≠ .cycle) :
    Attends operation c.machine (c.perform operation).console.machine := by
  cases operation with
  | reset | process => cases continues
  | cycle => exact absurd rfl between
  | load rom =>
    simp only [perform, load, Machine.load]
    cases refusal? rom.length with
    | none => exact ⟨rfl, by rintro ⟨⟩, fun _ => ⟨rfl, rfl, rfl⟩⟩
    | some e => exact .refl _ _
  | setKeys states =>
    simp only [perform, update, setKeys]
    split_ifs
    · exact ⟨rfl, fun _ => rfl, fun _ => ⟨rfl, rfl, rfl⟩⟩
    · exact .refl _ _
  | press key | release key =>
    simp only [perform, update, setKey]
    cases position? 16 key with
    | none => exact .refl _ _
    | some k => exact ⟨rfl, fun _ => rfl, fun _ => ⟨rfl, rfl, rfl⟩⟩
  | clearRedraw => exact ⟨rfl, fun _ => rfl, fun _ => ⟨rfl, rfl, rfl⟩⟩
  | tick =>
    simp only [perform, machine_tick]
    exact ⟨rfl, fun _ => rfl, fun other => absurd rfl other⟩
  | fetch =>
    simp only [perform, update]
    cases c.machine.fetch <;> exact .refl _ _

theorem perform_fetch (c : Console σ) : (c.perform .fetch).console = c := by
  simp only [perform, update]
  cases c.machine.fetch <;> rfl

/-- Between cycles and ticks a host changes nothing around its machine but the journal. -/
theorem perform_aside (c : Console σ) {operation : Operation}
    (continues : operation.continues = true) (cycle : operation ≠ .cycle)
    (tick : operation ≠ .tick) :
    (c.perform operation).console = { c with
      machine := (c.perform operation).console.machine
      journal := (c.perform operation).console.journal } := by
  cases operation with
  | reset | process => cases continues
  | cycle => exact absurd rfl cycle
  | tick => exact absurd rfl tick
  | clearRedraw => rfl
  | load rom =>
    simp only [perform, load]
    cases c.machine.load rom <;> rfl
  | setKeys states =>
    simp only [perform, update]
    cases c.machine.setKeys states <;> rfl
  | press key | release key =>
    simp only [perform, update]
    cases c.machine.setKey key _ <;> rfl
  | fetch => rw [perform_fetch]

/-- Consistency does not depend on whether a host looks at the next word. -/
theorem consistent_perform_continues {c : Console σ} (h : c.machine.Consistent)
    {operation : Operation} (continues : operation.continues = true) :
    (c.perform operation).console.machine.Consistent := by
  cases operation with
  | reset | process => cases continues
  | fetch =>
    rw [perform_fetch]
    exact h
  | _ => exact consistent_perform h rfl

theorem consistent_performAll_continues {c : Console σ} (h : c.machine.Consistent)
    {operations : List Operation} (continues : ∀ o ∈ operations, o.continues = true) :
    (c.performAll operations).machine.Consistent := by
  induction operations generalizing c with
  | nil => exact h
  | cons operation rest ih =>
    obtain ⟨first, others⟩ := List.forall_mem_cons.mp continues
    exact ih (consistent_perform_continues h first) others

/-! ## Moments of a run -/

/-- A cycle of a run at which something holds is its first operation or one of the later ones. -/
theorem exists_cycle_cons (holds : Console σ → List Operation → Prop) (c : Console σ)
    (operation : Operation) (rest : List Operation) :
    (∃ before after, operation :: rest = before ++ .cycle :: after ∧
        holds (c.performAll before) after) ↔
      (operation = .cycle ∧ holds c rest) ∨
        ∃ before after, rest = before ++ .cycle :: after ∧
          holds ((c.perform operation).console.performAll before) after := by
  constructor
  · rintro ⟨before, after, split, found⟩
    obtain ⟨rfl, first⟩ | ⟨before, rfl, others⟩ := List.cons_eq_append_iff.mp split
    · cases first
      exact .inl ⟨rfl, found⟩
    · exact .inr ⟨before, after, others, found⟩
  · rintro (⟨rfl, found⟩ | ⟨before, after, rfl, found⟩)
    · exact ⟨[], rest, rfl, found⟩
    · exact ⟨operation :: before, after, rfl, found⟩

/-- What holds at every cycle of a run holds at the first operation, if it is a cycle, and at the
later ones. -/
theorem forall_cycle_cons (holds : Console σ → Prop) (c : Console σ) (operation : Operation)
    (rest : List Operation) :
    (∀ before after, operation :: rest = before ++ .cycle :: after → holds (c.performAll before)) ↔
      (operation = .cycle → holds c) ∧
        ∀ before after, rest = before ++ .cycle :: after →
          holds ((c.perform operation).console.performAll before) := by
  constructor
  · intro all
    refine ⟨?_, ?_⟩
    · rintro rfl
      exact all [] rest rfl
    · rintro before after rfl
      exact all (operation :: before) after rfl
  · rintro ⟨first, later⟩ before after split
    obtain ⟨rfl, same⟩ | ⟨before, rfl, others⟩ := List.cons_eq_append_iff.mp split
    · cases same
      exact first rfl
    · exact later before after others

end Console

end HexConsole
