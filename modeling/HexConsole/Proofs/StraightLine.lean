import HexConsole.Proofs.Alike
import HexConsole.Proofs.Loading
import HexConsole.Proofs.Runs
import HexConsole.Proofs.Writing

/-!
# Straight lines

A straight instruction leaves the counter where it is. Main statement: to load a program of
straight instructions that does not write over itself and to run cycles is to dispatch its operands
one after the other, with a tick after each. What is left, or the fault that ends it, differs only
in where the counter stands and which address is noted.
-/
namespace HexConsole

/-- Whether an instruction leaves the counter where it is. -/
def Instruction.straight (i : Instruction) : Bool := !i.jumps && i.stride == 0

/-- A fault with another address to report. -/
def Fault.locating (counter : Int) : Fault → Fault
  | unknownInstruction operand _ => .unknownInstruction operand counter
  | outOfBounds address operand _ target => .outOfBounds address operand counter target
  | stackOverflow operand _ => .stackOverflow operand counter
  | stackUnderflow operand _ => .stackUnderflow operand counter
  | romTooLarge size available => .romTooLarge size available

namespace Machine

variable {m n : Machine}

/-- Whether an instruction writes to no memory cell between two addresses. -/
def StoresOutside (m : Machine) (i : Instruction) (low high : Int) : Prop :=
  ∀ address, m.index ≤ address → address < m.index + i.stores → address < low ∨ high ≤ address

/-- The end of an instruction on a machine that stands elsewhere. -/
def placing (counter address : Int) : Except Fault Machine → Except Fault Machine
  | .ok n => .ok { n with counter, operandAddress := address }
  | .error f => .error (f.locating address)

theorem withinMemory_placing (counter address : Int) (length : Nat) (n : Machine) :
    { m with counter, operandAddress := address }.withinMemory length
        { n with counter, operandAddress := address } =
      placing counter address (m.withinMemory length n) := by
  unfold withinMemory
  split_ifs <;> rfl

theorem saved_placing (counter address : Int) (count : Nat) :
    { m with counter, operandAddress := address }.saved count =
      { m.saved count with counter, operandAddress := address } := by
  have memory : { m with counter, operandAddress := address }.savedMemory count =
      m.savedMemory count := by
    simp only [savedMemory, reg, byteAt]
  unfold saved
  rw [memory]

/-- A straight instruction does the same wherever it stands. -/
theorem effect_placing {i : Instruction} (straight : i.straight = true)
    (counter address byte : Int) :
    { m with counter, operandAddress := address }.effect byte i =
      placing counter address (m.effect byte i) := by
  cases i with
  | leave | jump | call | jumpBeyond => cases straight
  | skipIfEquals | skipUnlessEquals | skipIfSame | skipUnlessSame | skipIfPressed
  | skipUnlessPressed | awaitKey => cases straight
  | draw x y height =>
    exact withinMemory_placing counter address height.val (m.drawn x y height.val)
  | storeDecimal x => exact withinMemory_placing counter address 3 (m.withDigits (m.reg x))
  | storeRegisters last =>
    simp only [effect]
    rw [saved_placing]
    exact withinMemory_placing counter address (last.val + 1) (m.saved (last.val + 1))
  | loadRegisters last =>
    exact withinMemory_placing counter address (last.val + 1) (m.restored (last.val + 1))
  | compute how x y => cases how <;> rfl
  | _ => rfl

end Machine

namespace Console

open Machine

variable {σ τ : Type} [RandomSource σ] [RandomSource τ]

/-- Dispatches operands one after the other, with a tick after each, up to the first that fails, and
counts those that do not. -/
def obey (c : Console σ) : List (BitVec 16) → Nat × Outcome σ
  | [] => (0, ⟨c, none⟩)
  | w :: rest =>
    let o := c.process w.toNat
    match o.failure? with
    | some _ => (0, o)
    | none =>
      let later := o.console.tick.obey rest
      (later.1 + 1, later.2)

/-- Whether no operand that is carried out writes to memory between two addresses. -/
def Spares (c : Console σ) (low high : Int) (words : List (BitVec 16)) : Prop :=
  ∀ before w after, words = before ++ w :: after →
    let o := (c.obey before).2
    o.failure? = none → (o.console.process w.toNat).failure? = none →
      ∀ i, Instruction.decode w.toNat = some i → o.console.machine.StoresOutside i low high

theorem obey_cons_of_failure {c : Console σ} {w : BitVec 16} {e : Failure}
    (failed : (c.process w.toNat).failure? = some e) (rest : List (BitVec 16)) :
    c.obey (w :: rest) = (0, c.process w.toNat) := by
  simp only [obey, failed]

theorem obey_cons_of_success {c : Console σ} {w : BitVec 16}
    (done : (c.process w.toNat).failure? = none) (rest : List (BitVec 16)) :
    c.obey (w :: rest) = (((c.process w.toNat).console.tick.obey rest).1 + 1,
      ((c.process w.toNat).console.tick.obey rest).2) := by
  simp only [obey, done]

theorem Spares.tail {c : Console σ} {low high : Int} {w : BitVec 16} {rest : List (BitVec 16)}
    (spares : c.Spares low high (w :: rest)) (done : (c.process w.toNat).failure? = none) :
    (c.process w.toNat).console.tick.Spares low high rest := by
  rintro before next after rfl
  have later := spares (w :: before) next after rfl
  rw [obey_cons_of_success done] at later
  exact later

theorem spares_nil (c : Console σ) (low high : Int) : c.Spares low high [] := by
  intro before w after split
  simp at split

theorem spares_cons {c : Console σ} {low high : Int} {w : BitVec 16} {rest : List (BitVec 16)}
    {i : Instruction} (decoded : Instruction.decode w.toNat = some i)
    (now : c.machine.StoresOutside i low high)
    (later : (c.process w.toNat).failure? = none →
      (c.process w.toNat).console.tick.Spares low high rest) : c.Spares low high (w :: rest) := by
  intro before v after split
  obtain ⟨rfl, first⟩ | ⟨before, rfl, others⟩ := List.cons_eq_append_iff.mp split
  · cases first
    intro o _ _ j same
    rw [decoded] at same
    cases same
    exact now
  · intro o done
    cases passed : (c.process w.toNat).failure? with
    | some e =>
      simp only [o, obey_cons_of_failure passed, passed] at done
      cases done
    | none =>
      have spares := later passed before v after others
      simp only [o, obey_cons_of_success passed] at done ⊢
      exact spares done

/-- A console that fetches the operands of a program, and one that is handed them, at the same
operand. -/
structure InStep (program : List (BitVec 16)) (k : Nat) (c : Console σ) (d : Console τ) : Prop where
  consistent : c.machine.Consistent
  running : c.machine.fault = none
  ticks : c.wiring.ticksAfterCycle = true
  counter : c.machine.counter = programStart + 2 * k
  intact : ∀ j (inside : j < program.length),
    c.machine.wordAt (programStart + 2 * j) = program[j].toNat
  machine : d.machine =
    { c.machine with counter := programStart, operandAddress := programStart }
  bytes : ∀ n, RandomSource.stream d.source n = RandomSource.stream c.source n

variable {program : List (BitVec 16)} {k : Nat} {c : Console σ} {d : Console τ}

namespace InStep

theorem nominal (h : InStep program k c d) : d.machine.Nominal := by
  have start : 0 ≤ (programStart : Int) ∧ (programStart : Int) ≤ 4350 := by decide
  rw [h.machine]
  exact { h.consistent.toNominal with counter := start }

theorem nextWord (h : InStep program k c d) (inside : k < program.length) :
    c.nextWord = program[k].toNat := by
  rw [Console.nextWord, h.counter]
  exact h.intact k inside

/-- An operand does the same to a console that is handed it as to one that has fetched it. -/
theorem attempt (h : InStep program k c d) (inside : k < program.length) {i : Instruction}
    (decoded : Instruction.decode program[k].toNat = some i) (straight : i.straight = true) :
    d.attempt program[k].toNat =
      placing programStart programStart (c.fetched.attempt c.nextWord) := by
  have word := h.nextWord inside
  have noted : { d.machine with operand := program[k].toNat } =
      { c.machine.fetched with counter := programStart, operandAddress := programStart } := by
    rw [h.machine, ← word]
    rfl
  obtain ⟨byte, -⟩ := supply_agrees (c := c.fetched) (d := d) h.bytes program[k].toNat
  rw [Console.attempt, attempt_fetched, word, noted, byte]
  simp only [obeyed, decoded]
  exact effect_placing straight programStart programStart _

/-- What a straight instruction leaves, with the operands of the program where they were. -/
theorem after (h : InStep program k c d) (inside : k < program.length) {i : Instruction}
    (decoded : Instruction.decode program[k].toNat = some i) (straight : i.straight = true)
    (room : c.machine.counter ≤ 4094) {n : Machine}
    (done : c.fetched.attempt c.nextWord = .ok n)
    (spares : d.machine.StoresOutside i programStart (programStart + 2 * program.length)) :
    n.fault = none ∧ n.counter = programStart + 2 * ((k + 1 : Nat) : Int) ∧
      ∀ j (inside : j < program.length), n.wordAt (programStart + 2 * j) = program[j].toNat := by
  have index : d.machine.index = c.machine.index := by rw [h.machine]
  rw [attempt_fetched, obeyed, h.nextWord inside, decoded] at done
  have writes := effect_writes (h.consistent.toNominal.fetched room) done
  simp only [Instruction.straight, Bool.and_eq_true, Bool.not_eq_true', beq_iff_eq] at straight
  obtain ⟨-, -, fault, -⟩ := writes.others
  refine ⟨fault.trans h.running, ?_, ?_⟩
  · have moved := writes.counter straight.1
    have counter := h.counter
    simp only [straight.2, Machine.fetched] at moved
    omega
  · intro j within
    have kept (address : Int) (from_start : programStart ≤ address)
        (to_end : address < programStart + 2 * program.length) :
        n.byteAt address = c.machine.byteAt address := by
      apply writes.memory.2 _ (by omega)
      have outside := spares address
      simp only [Machine.fetched, index] at outside ⊢
      omega
    rw [← h.intact j within, wordAt, kept _ (by omega) (by omega), kept _ (by omega) (by omega),
      wordAt]

/-- Both consoles go on to the next operand. -/
theorem next (h : InStep program k c d) (inside : k < program.length) {i : Instruction}
    (decoded : Instruction.decode program[k].toNat = some i) (straight : i.straight = true)
    (room : c.machine.counter ≤ 4094) {n : Machine}
    (done : c.fetched.attempt c.nextWord = .ok n)
    (ends : c.cycle = ⟨{ (c.fetched.supply c.nextWord).2 with machine := n }.settle, none⟩)
    (spares : d.machine.StoresOutside i programStart (programStart + 2 * program.length)) :
    InStep program (k + 1) c.cycle.console
      { (d.supply program[k].toNat).2 with
        machine := { n with counter := programStart, operandAddress := programStart } }.tick := by
  obtain ⟨fault, counter, intact⟩ := h.after inside decoded straight room done spares
  obtain ⟨-, bytes⟩ := supply_agrees (c := c.fetched) (d := d) h.bytes program[k].toNat
  have ticks : (c.fetched.supply c.nextWord).2.wiring.ticksAfterCycle = true := by
    rw [wiring_supply]
    exact h.ticks
  have machine : c.cycle.console.machine = n.tick := by
    rw [ends, settle, if_pos ticks, machine_tick]
  refine ⟨consistent_cycle h.consistent, ?_, ?_, ?_, ?_, ?_, ?_⟩
  · rw [machine]
    exact fault
  · rw [ends, (settle_wired _).2]
    exact ticks
  · rw [machine]
    exact counter
  · rw [machine]
    exact intact
  · rw [machine, machine_tick]
    rfl
  · rw [ends, (settle_wired _).1, (tick_wired _).1, h.nextWord inside]
    exact bytes

/-- One operand, fetched by the one console and handed to the other: both refuse it, or both carry
it out and are at the next operand, unless it has written over the program. -/
theorem step (h : InStep program k c d) (fits : 2 * program.length ≤ programSpace)
    (inside : k < program.length) {i : Instruction}
    (decoded : Instruction.decode program[k].toNat = some i) (straight : i.straight = true) :
    let o := d.process program[k].toNat
    (∃ f, c.cycle.failure? = some (.fault f) ∧
      o.failure? = some (.fault (f.locating programStart))) ∨
    (c.cycle.failure? = none ∧ o.failure? = none ∧
      (d.machine.StoresOutside i programStart (programStart + 2 * program.length) →
        InStep program (k + 1) c.cycle.console o.console.tick)) := by
  intro o
  have counter := h.counter
  have handed : o = _ := process_eq h.nominal program[k].toNat
  rw [h.attempt inside decoded straight] at handed
  obtain ⟨past, -⟩ | ⟨room, f, raised, ends⟩ | ⟨room, n, done, ends⟩ :=
    cycle_cases h.consistent.toNominal h.running
  · unfold programSpace programStart memorySize at *
    omega
  · left
    rw [raised] at handed
    exact ⟨f, by rw [ends], by rw [handed]; rfl⟩
  · right
    rw [done] at handed
    refine ⟨by rw [ends], by rw [handed]; rfl, ?_⟩
    intro spares
    rw [handed]
    exact h.next inside decoded straight room done ends spares

/-- Where a row of operands starts in a program, and where the rest of it does. -/
theorem row_cons {w : BitVec 16} {rest : List (BitVec 16)} (here : w :: rest <+: program.drop k) :
    (∃ inside : k < program.length, program[k] = w) ∧ rest <+: program.drop (k + 1) := by
  obtain ⟨later, dropped, ahead⟩ := List.cons_prefix_iff.mp here
  have head : program[k]? = some w := by rw [← List.head?_drop, dropped, List.head?_cons]
  have tail : program.drop (k + 1) = later := by rw [← List.tail_drop, dropped, List.tail_cons]
  exact ⟨List.getElem?_eq_some_iff.mp head, tail ▸ ahead⟩

/-- Operands of a program in a row. -/
theorem run {now : List (BitVec 16)} (h : InStep program k c d)
    (fits : 2 * program.length ≤ programSpace) (here : now <+: program.drop k)
    (straight : ∀ w ∈ now, ∃ i, Instruction.decode w.toNat = some i ∧ i.straight = true)
    (spares : d.Spares programStart (programStart + 2 * program.length) now) :
    (c.run now.length).1 = (d.obey now).1 ∧
    ((∃ f, (c.run now.length).2.failure? = some (.fault f) ∧
        (d.obey now).2.failure? = some (.fault (f.locating programStart))) ∨
      ((c.run now.length).2.failure? = none ∧ (d.obey now).2.failure? = none ∧
        InStep program (k + now.length) (c.run now.length).2.console (d.obey now).2.console)) := by
  -- From the front: the rest of the row starts where its first operand leaves the consoles.
  induction now generalizing k c d with
  | nil => exact ⟨rfl, .inr ⟨rfl, rfl, h⟩⟩
  | cons w rest ih =>
    obtain ⟨⟨inside, first⟩, ahead⟩ := row_cons here
    obtain ⟨⟨i, decoded, plain⟩, others⟩ := List.forall_mem_cons.mp straight
    have moved := h.step fits inside (first ▸ decoded) plain
    rw [first] at moved
    obtain ⟨f, failed, refused⟩ | ⟨done, obeyed, next⟩ := moved
    · rw [List.length_cons, run_of_failure failed, obey_cons_of_failure refused]
      exact ⟨rfl, .inl ⟨f, failed, refused⟩⟩
    · rw [List.length_cons, run_of_success done, obey_cons_of_success obeyed]
      have spared := spares [] w rest rfl rfl obeyed i decoded
      obtain ⟨count, ends⟩ := ih (next spared) ahead others (spares.tail obeyed)
      refine ⟨congrArg (· + 1) count, ?_⟩
      rw [Nat.add_right_comm] at ends
      exact ends

end InStep

theorem inStep_reset_load (ticks : c.wiring.ticksAfterCycle = true)
    (bytes : ∀ n, RandomSource.stream d.source n = RandomSource.stream c.source n)
    (fits : 2 * program.length ≤ programSpace) :
    InStep program 0 (c.reset.load (bigEndian program)).console
      (d.reset.load (bigEndian program)).console := by
  have room : (bigEndian program).length ≤ programSpace := by rwa [length_bigEndian]
  have first := machine_reset_load c room
  have second := machine_reset_load d room
  refine ⟨consistent_reset_load c _, ?_, ?_, ?_, ?_, ?_, ?_⟩
  · rw [first]
    rfl
  · rw [(wired_reset_load c _).2]
    exact ticks
  · rw [first]
    rfl
  · intro j inside
    rw [first]
    exact wordAt_loaded_bigEndian (m := initial) size_glyphMemory fits inside
  · rw [first, second]
    rfl
  · rw [(wired_reset_load c _).1, (wired_reset_load d _).1]
    exact bytes

/-- To load a program of straight instructions and to run cycles is to dispatch its operands one
after the other, with a tick after each, as long as none that is carried out writes over the
program. Both stop after the same number of operands with the same fault, or both get through, with
the counter of the one past what it has executed, and that of the other where it was. -/
theorem run_eq_obey (ticks : c.wiring.ticksAfterCycle = true)
    (bytes : ∀ n, RandomSource.stream d.source n = RandomSource.stream c.source n)
    {words : List (BitVec 16)} (few : words.length ≤ 1792)
    (straight : ∀ w ∈ words, ∃ i, Instruction.decode w.toNat = some i ∧ i.straight = true)
    {count : Nat} (inside : count ≤ words.length)
    (spares : (d.reset.load (bigEndian words)).console.Spares programStart
      (programStart + 2 * words.length) (words.take count)) :
    let fetching := (c.reset.load (bigEndian words)).console.run count
    let handed := (d.reset.load (bigEndian words)).console.obey (words.take count)
    fetching.1 = handed.1 ∧
    ((∃ f, fetching.2.failure? = some (.fault f) ∧
        handed.2.failure? = some (.fault (f.locating programStart))) ∨
      (fetching.2.failure? = none ∧ handed.2.failure? = none ∧
        fetching.2.console.machine.counter = programStart + 2 * count ∧
        handed.2.console.machine = { fetching.2.console.machine with
          counter := programStart
          operandAddress := programStart } ∧
        ∀ n, RandomSource.stream handed.2.console.source n =
          RandomSource.stream fetching.2.console.source n)) := by
  intro fetching handed
  have fits : 2 * words.length ≤ programSpace := by
    unfold programSpace programStart memorySize
    omega
  have here : words.take count <+: words.drop 0 := List.take_prefix count words
  have early : ∀ w ∈ words.take count, ∃ i, Instruction.decode w.toNat = some i ∧
      i.straight = true := fun w taken => straight w (List.mem_of_mem_take taken)
  have together := (inStep_reset_load ticks bytes fits).run fits here early spares
  rw [List.length_take_of_le inside, Nat.zero_add] at together
  obtain ⟨finished, refused | ⟨done, obeyed, next⟩⟩ := together
  · exact ⟨finished, .inl refused⟩
  · exact ⟨finished, .inr ⟨done, obeyed, next.counter, next.machine, next.bytes⟩⟩

/-- A program that points the index past its end and stores two registers there. -/
theorem run_eq_obey_store :
    let c := assemble ⟨true, true⟩ (Tape.repeating #[7]) .debug
    let words : List (BitVec 16) := [0xA300, 0xF155]
    let d := (c.reset.load (bigEndian words)).console
    (c.wiring.ticksAfterCycle = true ∧ d.Spares programStart (programStart + 2 * 2) words ∧
      ∀ w ∈ words, ∃ i, Instruction.decode w.toNat = some i ∧ i.straight = true) ∧
    (d.run 2).1 = (d.obey words).1 := by
  intro c words d
  have pointing : Instruction.decode (0xA300 : BitVec 16).toNat = some (.setIndex 0x300) := by
    decide
  have storing : Instruction.decode (0xF155 : BitVec 16).toNat = some (.storeRegisters 1) := by
    decide
  have nominal : d.machine.Nominal := (consistent_reset_load c _).toNominal
  have index : (d.process (0xA300 : BitVec 16).toNat).console.tick.machine.index = 0x300 := by
    rw [machine_tick, process_eq nominal, Console.attempt, obeyed, pointing]
    rfl
  have spares : d.Spares programStart (programStart + 2 * 2) words := by
    refine spares_cons pointing ?_ fun _ => spares_cons storing ?_ fun _ => spares_nil _ _ _
    · simp only [StoresOutside, Instruction.stores]
      omega
    · simp only [StoresOutside, Instruction.stores, index, programStart]
      omega
  have straight : ∀ w ∈ words, ∃ i, Instruction.decode w.toNat = some i ∧ i.straight = true := by
    intro w member
    simp only [words, List.mem_cons, List.not_mem_nil, or_false] at member
    obtain rfl | rfl := member
    · exact ⟨_, pointing, rfl⟩
    · exact ⟨_, storing, rfl⟩
  have all : 2 ≤ words.length := by decide
  refine ⟨⟨rfl, spares, straight⟩, ?_⟩
  exact (run_eq_obey (c := c) (d := c) rfl (fun _ => rfl) (by decide) straight all spares).1

end Console

end HexConsole
