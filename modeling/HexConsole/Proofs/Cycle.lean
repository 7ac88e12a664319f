import HexConsole.Console
import HexConsole.Proofs.Effect

/-!
# One cycle

What a cycle can do, said once. A running machine either has no word to fetch, or
fetches one that it refuses, or fetches one and carries it out. In the first two cases
it halts, and nothing but the latched fault and the trace of the fetch tells them from
a machine that has not moved.
-/
namespace HexConsole

namespace Machine

variable {m : Machine}

/-- The big-endian word at an address that does not count from the end. -/
def wordAt (m : Machine) (address : Int) : Int :=
  (m.byteAt address).toNat * 256 + (m.byteAt (address + 1)).toNat

/-- A machine that has fetched its next instruction and is about to carry it out. -/
def fetched (m : Machine) : Machine :=
  { m with
    operandAddress := m.counter
    counter := m.counter + 2
    operand := m.wordAt m.counter }

/-- The machine after an operand, or the fault that it raises. -/
def obeyed (m : Machine) (byte operand : Int) : Except Fault Machine :=
  match Instruction.decode operand with
  | none => .error (.unknownInstruction operand m.operandAddress)
  | some i => m.effect byte i

theorem wordAt_bounds (m : Machine) (address : Int) :
    0 ≤ m.wordAt address ∧ m.wordAt address ≤ 65535 := by
  have high := (m.byteAt address).isLt
  have low := (m.byteAt (address + 1)).isLt
  unfold wordAt
  omega

theorem Nominal.fetched (h : m.Nominal) (inside : m.counter ≤ 4094) : m.fetched.Nominal := by
  obtain ⟨low, high⟩ := h.counter
  exact { h with counter := ⟨by simp [Machine.fetched]; omega, by simp [Machine.fetched]; omega⟩ }

theorem Nominal.advanced (h : m.Nominal) (inside : m.counter ≤ 4094) :
    2 ≤ m.fetched.counter ∧ m.fetched.counter ≤ 4096 := by
  obtain ⟨low, -⟩ := h.counter
  simp only [Machine.fetched]
  omega

theorem Nominal.noting (h : m.Nominal) (operand : Int) : { m with operand }.Nominal :=
  { h with }

theorem fetch_eq (h : m.Nominal) :
    m.fetch = if 4094 < m.counter then
        .error (.fault (.outOfBounds m.counter m.operand m.counter "memory"))
      else .ok (m.wordAt m.counter) := by
  obtain ⟨low, -⟩ := h.counter
  have size := h.memory
  unfold memorySize at size
  by_cases past : 4094 < m.counter
  · simp [fetch, Step.fetch, memorySize, past]
  · have high := Step.run_peek low (show m.counter < m.memory.size by omega)
    have next := Step.run_peek (show 0 ≤ m.counter + 1 by omega)
      (show m.counter + 1 < m.memory.size by omega)
    simp [fetch, Step.fetch, memorySize, past, high, next, wordAt]

theorem dispatch_eq (h : m.Nominal) (byte operand : Int) :
    m.dispatch byte operand = match { m with operand }.obeyed byte operand with
      | .ok n => (n, none)
      | .error f => ({ m with operand }, some (.fault f)) := by
  unfold dispatch after Step.dispatch obeyed
  cases decoded : Instruction.decode operand with
  | none => simp
  | some i =>
    have ends := Step.run_execute (h.noting operand) byte i
    simp only [Step.run_bind, Step.run_modify, ends]
    cases { m with operand }.effect byte i <;> rfl

/-- A fault of an operand reports it, with the address that the machine has noted. -/
theorem obeyed_origin {byte operand : Int} {f : Fault} (noted : m.operand = operand)
    (raised : m.obeyed byte operand = .error f) :
    f.origin? = some (operand, m.operandAddress) := by
  subst noted
  unfold obeyed at raised
  cases decoded : Instruction.decode m.operand with
  | none =>
    rw [decoded] at raised
    cases raised
    rfl
  | some i =>
    rw [decoded] at raised
    exact effect_origin raised

/-- A random byte is only asked for by an instruction that has no fault. -/
theorem obeyed_of_drawsByte {byte operand : Int}
    (draws : (Instruction.decode operand).any Instruction.drawsByte = true) :
    ∃ n, m.obeyed byte operand = .ok n := by
  cases decoded : Instruction.decode operand with
  | none => simp [decoded] at draws
  | some i => cases i <;> simp_all [obeyed, Instruction.drawsByte, effect]

end Machine

namespace Console

open Machine

variable {σ : Type}

/-- A console whose machine has latched a fault. -/
def halted (c : Console σ) (f : Fault) : Console σ :=
  { c with machine := { c.machine with fault := some f } }.note (.halted f)

def endFault (c : Console σ) : Fault :=
  .outOfBounds c.machine.counter c.machine.operand c.machine.counter "memory"

/-- The word that the machine executes next, if it can be fetched. -/
def nextWord (c : Console σ) : Int := c.machine.wordAt c.machine.counter

/-- A console whose machine has fetched its next word. -/
def fetched (c : Console σ) : Console σ :=
  { c with machine := c.machine.fetched }.note (.executing c.machine.counter c.nextWord)

/-- A console whose machine has moved past its next word, and has not carried it out. -/
def passed (c : Console σ) : Console σ :=
  { c with machine := { c.machine with
    operandAddress := c.machine.counter
    counter := c.machine.counter + 2 } }.note (.executing c.machine.counter c.nextWord)

theorem pass_look (c : Console σ) : c.look.pass c.nextWord = c.passed := pass_eq c.look c.nextWord

variable [RandomSource σ]

@[simp] theorem machine_supply (c : Console σ) (word : Int) :
    (c.supply word).2.machine = c.machine := by
  unfold supply
  split_ifs <;> rfl

/-- What a word does, with the byte that it is supplied with. -/
def attempt (c : Console σ) (word : Int) : Except Fault Machine :=
  { c.machine with operand := word }.obeyed (c.supply word).1 word

theorem process_eq {c : Console σ} (h : c.machine.Nominal) (word : Int) :
    c.process word = match c.attempt word with
      | .ok n => ⟨{ (c.supply word).2 with machine := n }, none⟩
      | .error f =>
        ⟨{ c with machine := { c.machine with operand := word } }, some (.fault f)⟩ := by
  by_cases draws : (Instruction.decode word).any Instruction.drawsByte = true
  · obtain ⟨n, ends⟩ : ∃ n, c.attempt word = .ok n := obeyed_of_drawsByte draws
    simp only [process, ends]
    rw [attempt] at ends
    rw [machine_supply, dispatch_eq h, ends]
  · have same : (c.supply word).2 = c := by simp [supply, draws]
    simp only [process, attempt, same]
    rw [dispatch_eq h]
    cases { c.machine with operand := word }.obeyed (c.supply word).1 word <;> rfl

/-- A random byte is taken only for an instruction that asks for one. -/
theorem supply_of_plain (c : Console σ) {word : Int} {i : Instruction}
    (decoded : Instruction.decode word = some i) (plain : i.drawsByte = false) :
    c.supply word = (0, c) := by
  simp [supply, decoded, plain]

theorem attempt_of_decode (c : Console σ) {word : Int} {i : Instruction}
    (decoded : Instruction.decode word = some i) (plain : i.drawsByte = false) :
    c.attempt word = { c.machine with operand := word }.effect 0 i := by
  simp only [attempt, obeyed, decoded, supply_of_plain c decoded plain]

/-- A word is carried out wherever the steps of its instruction run to their end, also on a machine
that is out of its ranges. -/
theorem process_of_run {c : Console σ} {word : Int} {i : Instruction}
    (decoded : Instruction.decode word = some i) (plain : i.drawsByte = false) {n : Machine}
    (ends : (Step.execute 0 i).run { c.machine with operand := word } = .ok () n) :
    c.process word = ⟨{ c with machine := n }, none⟩ := by
  simp only [process, supply_of_plain c decoded plain, dispatch, after, Step.dispatch,
    Step.run_bind, Step.run_modify, decoded, ends]

theorem process_of_ok {c : Console σ} (h : c.machine.Nominal) {word : Int} {i : Instruction}
    (decoded : Instruction.decode word = some i) (plain : i.drawsByte = false) {n : Machine}
    (done : { c.machine with operand := word }.effect 0 i = .ok n) :
    c.process word = ⟨{ c with machine := n }, none⟩ := by
  rw [process_eq h, attempt_of_decode c decoded plain, done, supply_of_plain c decoded plain]

theorem process_of_error {c : Console σ} (h : c.machine.Nominal) {word : Int} {i : Instruction}
    (decoded : Instruction.decode word = some i) (plain : i.drawsByte = false) {f : Fault}
    (raised : { c.machine with operand := word }.effect 0 i = .error f) :
    c.process word =
      ⟨{ c with machine := { c.machine with operand := word } }, some (.fault f)⟩ := by
  rw [process_eq h, attempt_of_decode c decoded plain, raised]

theorem cycle_halted {c : Console σ} {f : Fault} (halted : c.machine.fault = some f) :
    c.cycle = ⟨c, some (.fault f)⟩ := by
  simp only [cycle, halted]

theorem advance_eq {c : Console σ} (h : c.machine.Nominal) :
    c.advance = if 4094 < c.machine.counter then ⟨c.look, some (.fault c.endFault)⟩
      else c.passed.process c.nextWord := by
  have word : c.look.machine.fetch = _ := fetch_eq { h with }
  rw [advance, word]
  by_cases past : 4094 < c.machine.counter
  · rw [if_pos past, if_pos (show 4094 < c.look.machine.counter from past)]
    rfl
  · rw [if_neg past, if_neg (show ¬4094 < c.look.machine.counter from past), ← pass_look]
    rfl

/-- What a word does depends on the machine that carries it out only after the machine
has noted it. -/
theorem process_passed {c : Console σ} (h : c.machine.Nominal) (inside : c.machine.counter ≤ 4094) :
    c.passed.process c.nextWord = match c.fetched.attempt c.nextWord with
      | .ok n => ⟨{ (c.fetched.supply c.nextWord).2 with machine := n }, none⟩
      | .error f => ⟨c.fetched, some (.fault f)⟩ := by
  have nominal : c.passed.machine.Nominal := { h.fetched inside with }
  have same : c.passed.attempt c.nextWord = c.fetched.attempt c.nextWord := by
    unfold attempt supply
    split_ifs <;> rfl
  have supplied (n : Machine) : { (c.passed.supply c.nextWord).2 with machine := n }
      = { (c.fetched.supply c.nextWord).2 with machine := n } := by
    unfold supply
    split_ifs <;> rfl
  rw [process_eq nominal, same]
  cases c.fetched.attempt c.nextWord with
  | ok n => exact congrArg (Outcome.mk · none) (supplied n)
  | error f => rfl

/-- The three ends of a cycle of a machine that runs. -/
theorem cycle_cases {c : Console σ} (h : c.machine.Nominal) (running : c.machine.fault = none) :
    (4094 < c.machine.counter ∧
      c.cycle = ⟨c.look.halted c.endFault, some (.fault c.endFault)⟩) ∨
    (c.machine.counter ≤ 4094 ∧ ∃ f, c.fetched.attempt c.nextWord = .error f ∧
      c.cycle = ⟨c.fetched.halted f, some (.fault f)⟩) ∨
    (c.machine.counter ≤ 4094 ∧ ∃ n, c.fetched.attempt c.nextWord = .ok n ∧
      c.cycle = ⟨{ (c.fetched.supply c.nextWord).2 with machine := n }.settle, none⟩) := by
  simp only [cycle, running, advance_eq h]
  by_cases past : 4094 < c.machine.counter
  · rw [if_pos past]
    exact .inl ⟨past, rfl⟩
  · have inside : c.machine.counter ≤ 4094 := by omega
    rw [if_neg past, process_passed h inside]
    right
    cases ends : c.fetched.attempt c.nextWord with
    | ok n => exact .inr ⟨inside, n, rfl, rfl⟩
    | error f => exact .inl ⟨inside, f, rfl, rfl⟩

end Console

end HexConsole
