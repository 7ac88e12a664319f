import HexConsole.Proofs.Encoding
import HexConsole.Proofs.Loading
import HexConsole.Proofs.Trace

/-!
# Random bytes

A machine takes a byte from its source for every operand of the form `Cxkk` that it executes, and
for nothing else. Main statement: the bytes are taken in order and none of them is lost, so what a
run does is settled by the machine that it starts with, by what the host does, and by as many bytes
as there are such operands in it.

Nothing here asks for a machine in its ranges, up to the register that a byte is written to: two
machines that are the same stay the same, whatever they hold.
-/
namespace HexConsole

namespace Instruction

/-- Whether an operand has the form `Cxkk`. -/
def asks (operand : Int) : Bool := operand % 65536 / 4096 == 0xC

theorem decode_random (x : Register) (mask : Fin 256) :
    decode (0xC000 + 0x100 * x.val + mask.val) = some (.random x mask) := by
  apply decode_of_word
  · simp only [word]
    omega
  · simp only [word]
    omega

/-- The operands that ask for a byte are those of the family C. -/
theorem any_drawsByte_decode (operand : Int) : (decode operand).any drawsByte = asks operand := by
  by_cases family : operand % 65536 / 4096 = 0xC
  · have nibble : (operand % 65536).toNat / 4096 = 0xC := by omega
    rw [decode_eq, if_neg (by omega), if_neg (by omega)]
    simp only [ofWord?, nibble, Option.any_some, drawsByte, asks, family, beq_self_eq_true]
  · have plain (i : Instruction) (decoded : decode operand = some i) : i.drawsByte = false := by
      have word := word_of_decode decoded
      cases i with
      | random x mask =>
        simp only [Instruction.word] at word
        omega
      | _ => rfl
    have other : asks operand = false := beq_eq_false_iff_ne.mpr family
    cases decoded : decode operand with
    | none => exact other.symm
    | some i => exact (plain i decoded).trans other.symm

end Instruction

namespace RandomSource

variable {σ : Type} [RandomSource σ]

theorem after_after (source : σ) (m n : Nat) : after (after source m) n = after source (m + n) := by
  induction n with
  | zero => rfl
  | succ n ih => exact congrArg (fun s => (draw s).2) ih

/-- What a source gives after some draws is what it gives from that place on. -/
theorem stream_after (source : σ) (n j : Nat) :
    stream (after source n) j = stream source (n + j) := by
  simp only [stream, after_after]

end RandomSource

namespace Machine

/-- Where the next word is, and what it is, does not depend on the address that is noted. -/
theorem fetch_noting (m : Machine) (operandAddress : Int) :
    { m with operandAddress }.fetch = m.fetch := by
  simp only [fetch, Step.fetch, Step.peek, Step.run_bind, Step.run_get]
  split_ifs
  · rfl
  · simp only [Step.run_bind, Step.run_get, Step.run_touch]
    cases position? m.memory.size m.counter with
    | none => rfl
    | some high =>
      simp only [Step.run_pure]
      cases position? m.memory.size (m.counter + 1) <;> rfl

end Machine

/-- How a cycle ends, given the outcome of its instruction. -/
def Outcome.ended {σ : Type} (o : Outcome σ) : Outcome σ :=
  match o.failure? with
  | some e => o.console.halt e
  | none => ⟨o.console.settle, none⟩

namespace Console

open Machine

variable {σ τ : Type}

theorem source_halt (c : Console σ) (e : Failure) :
    (c.halt e).console.source = c.source ∧ (c.halt e).console.drawn = c.drawn := by
  cases e <;> exact ⟨rfl, rfl⟩

theorem drawn_tick (c : Console σ) : c.tick.drawn = c.drawn := by
  simp only [tick]
  split_ifs <;> rfl

theorem drawn_settle (c : Console σ) : c.settle.drawn = c.drawn := by
  unfold settle
  split_ifs
  · exact drawn_tick c
  · rfl

/-- Whether an operation executes an operand that asks for a random byte. -/
def asks (c : Console σ) : Operation → Bool
  | .process operand => Instruction.asks operand
  | .cycle => c.fetching.any fun fetched => Instruction.asks fetched.2
  | _ => false

theorem asks_of_word {c : Console σ} (running : c.machine.fault = none) {word : Int}
    (fetched : c.machine.fetch = .ok word) : c.asks .cycle = Instruction.asks word := by
  simp only [asks, fetching, running, fetched, Option.any_some]

/-- A cycle without a word asks for nothing. -/
theorem asks_of_fetching_none {c : Console σ} (idle : c.fetching = none) :
    c.asks .cycle = false := by
  simp only [asks, idle, Option.any_none]

variable [RandomSource σ] [RandomSource τ] {c d : Console σ} {n : Nat}

/-! ## Single steps -/

theorem supply_eq (c : Console σ) (operand : Int) :
    c.supply operand = if Instruction.asks operand then
        (RandomSource.stream c.source 0,
          { c with source := RandomSource.after c.source 1, drawn := c.drawn + 1 })
      else (0, c) := by
  unfold supply
  rw [Instruction.any_drawsByte_decode]
  rfl

theorem process_eq_dispatch (c : Console σ) (operand : Int) :
    c.process operand =
      ⟨{ (c.supply operand).2 with
          machine := (c.machine.dispatch (c.supply operand).1 operand).1 },
        (c.machine.dispatch (c.supply operand).1 operand).2⟩ := by
  simp only [process, machine_supply]

theorem cycle_eq_ended (running : c.machine.fault = none) : c.cycle = c.advance.ended := by
  simp only [cycle, running]
  rfl

theorem advance_of_word {word : Int} (word_eq : c.machine.fetch = .ok word) :
    c.advance = (c.look.pass word).process word := by
  have same : c.look.machine.fetch = .ok word := (fetch_noting _ _).trans word_eq
  simp only [advance, same]

theorem advance_of_failure {e : Failure} (missing : c.machine.fetch = .error e) :
    c.advance = ⟨c.look, some e⟩ := by
  have same : c.look.machine.fetch = .error e := (fetch_noting _ _).trans missing
  simp only [advance, same]

/-! ## Taking bytes -/

/-- How many operations of a run execute an operand that asks for a random byte. -/
def asked (c : Console σ) : List Operation → Nat
  | [] => 0
  | operation :: rest => (c.asks operation).toNat + (c.perform operation).console.asked rest

/-- From one console to the other so many bytes have been taken, and no more. -/
structure Takes (n : Nat) (c d : Console σ) : Prop where
  drawn : d.drawn = c.drawn + n
  source : d.source = RandomSource.after c.source n

theorem Takes.refl (c : Console σ) : Takes 0 c c := ⟨rfl, rfl⟩

theorem Takes.trans {e : Console σ} {m : Nat} (first : Takes m c d) (second : Takes n d e) :
    Takes (m + n) c e where
  drawn := by rw [second.drawn, first.drawn, Nat.add_assoc]
  source := by rw [second.source, first.source, RandomSource.after_after]

theorem Takes.ended {o : Outcome σ} (h : Takes n c o.console) : Takes n c o.ended.console := by
  unfold Outcome.ended
  cases o.failure? with
  | some e =>
    obtain ⟨source, drawn⟩ := source_halt o.console e
    exact ⟨drawn.trans h.drawn, source.trans h.source⟩
  | none => exact ⟨(drawn_settle _).trans h.drawn, (settle_wired _).1.trans h.source⟩

theorem takes_process (c : Console σ) (operand : Int) :
    Takes (Instruction.asks operand).toNat c (c.process operand).console := by
  rw [process_eq_dispatch, supply_eq]
  cases Instruction.asks operand <;> exact ⟨rfl, rfl⟩

theorem takes_cycle (c : Console σ) : Takes (c.asks .cycle).toNat c c.cycle.console := by
  cases running : c.machine.fault with
  | some f =>
    have idle : c.fetching = none := by simp only [fetching, running]
    rw [cycle_halted running, asks_of_fetching_none idle]
    exact .refl c
  | none =>
    rw [cycle_eq_ended running]
    apply Takes.ended
    cases fetched : c.machine.fetch with
    | error e =>
      have idle : c.fetching = none := by simp only [fetching, running, fetched]
      rw [advance_of_failure fetched, asks_of_fetching_none idle]
      exact ⟨rfl, rfl⟩
    | ok word =>
      -- Neither the look nor the move past the word takes anything.
      have taken := takes_process (c.look.pass word) word
      rw [advance_of_word fetched, asks_of_word running fetched]
      rw [pass_eq] at taken ⊢
      exact ⟨taken.drawn, taken.source⟩

theorem takes_update (c : Console σ) (result : Except Failure Machine) :
    Takes 0 c (c.update result).console := by
  cases result <;> exact ⟨rfl, rfl⟩

theorem takes_perform (c : Console σ) (operation : Operation) :
    Takes (c.asks operation).toNat c (c.perform operation).console := by
  cases operation with
  | process operand => exact takes_process c operand
  | cycle => exact takes_cycle c
  | reset =>
    cases c
    exact ⟨rfl, rfl⟩
  | clearRedraw => exact ⟨rfl, rfl⟩
  | load rom =>
    simp only [perform, load]
    cases c.machine.load rom <;> exact ⟨rfl, rfl⟩
  | setKeys states => exact takes_update c (c.machine.setKeys states)
  | press key => exact takes_update c (c.machine.setKey key true)
  | release key => exact takes_update c (c.machine.setKey key false)
  | fetch =>
    rw [perform_fetch]
    exact .refl c
  | tick => exact ⟨drawn_tick c, (tick_wired c).1⟩

/-- A run takes one byte for each operand that asks for one. -/
theorem takes_performAll (c : Console σ) (operations : List Operation) :
    Takes (c.asked operations) c (c.performAll operations) := by
  induction operations generalizing c with
  | nil => exact .refl c
  | cons operation rest ih => exact (takes_perform c operation).trans (ih _)

theorem takes_reset_performAll (c : Console σ) (operations : List Operation) :
    Takes (c.reset.asked operations) c (c.reset.performAll operations) := by
  have reset : Takes 0 c c.reset := takes_perform c .reset
  simpa using reset.trans (takes_performAll c.reset operations)

/-! ## Twins -/

/-- Two consoles with the same machine and the same timing, whose sources agree on so many
bytes. -/
structure Twins (k : Nat) (c : Console σ) (d : Console τ) : Prop where
  machine : d.machine = c.machine
  timing : d.wiring.ticksAfterCycle = c.wiring.ticksAfterCycle
  bytes : ∀ j < k, RandomSource.stream d.source j = RandomSource.stream c.source j

namespace Twins

variable {k : Nat} {c : Console σ} {d : Console τ}

theorem fetching_eq (h : Twins k c d) : d.fetching = c.fetching := by
  unfold fetching
  rw [h.machine]

/-- A reset makes twins of any two consoles that are timed alike. -/
theorem of_reset (timing : d.wiring.ticksAfterCycle = c.wiring.ticksAfterCycle)
    (bytes : ∀ j < k, RandomSource.stream d.source j = RandomSource.stream c.source j) :
    Twins k c.reset d.reset := by
  obtain ⟨source, wiring⟩ := wired_reset c
  obtain ⟨source', wiring'⟩ := wired_reset d
  refine ⟨by rw [machine_reset, machine_reset], ?_, ?_⟩
  · rw [wiring, wiring', timing]
  · rw [source, source']
    exact bytes

theorem update (h : Twins k c d) (result : Except Failure Machine) :
    (d.update result).failure? = (c.update result).failure? ∧
      Twins k (c.update result).console (d.update result).console := by
  cases result with
  | ok machine => exact ⟨rfl, rfl, h.timing, h.bytes⟩
  | error e => exact ⟨rfl, h⟩

theorem tick (h : Twins k c d) : Twins k c.tick d.tick := by
  obtain ⟨source, wiring⟩ := tick_wired c
  obtain ⟨source', wiring'⟩ := tick_wired d
  refine ⟨?_, ?_, ?_⟩
  · rw [machine_tick, machine_tick, h.machine]
  · rw [wiring, wiring', h.timing]
  · rw [source, source']
    exact h.bytes

theorem settle (h : Twins k c d) : Twins k c.settle d.settle := by
  unfold Console.settle
  rw [h.timing]
  split_ifs
  · exact h.tick
  · exact h

theorem halt (h : Twins k c d) (e : Failure) :
    (d.halt e).failure? = (c.halt e).failure? ∧
      Twins k (c.halt e).console (d.halt e).console := by
  cases e with
  | fault f =>
    refine ⟨rfl, ?_, h.timing, h.bytes⟩
    simp only [Console.halt, note, h.machine]
  | _ => exact ⟨rfl, h⟩

theorem ended {o : Outcome σ} {p : Outcome τ} (same : p.failure? = o.failure?)
    (h : Twins k o.console p.console) :
    p.ended.failure? = o.ended.failure? ∧ Twins k o.ended.console p.ended.console := by
  unfold Outcome.ended
  rw [same]
  cases o.failure? with
  | some e => exact h.halt e
  | none => exact ⟨rfl, h.settle⟩

/-- Twins carry out an operand alike, as long as they agree on the byte that it may ask for. -/
theorem process (h : Twins k c d) {operand : Int} (room : (Instruction.asks operand).toNat ≤ k) :
    (d.process operand).failure? = (c.process operand).failure? ∧
      Twins (k - (Instruction.asks operand).toNat) (c.process operand).console
        (d.process operand).console := by
  rw [process_eq_dispatch, process_eq_dispatch, supply_eq, supply_eq, h.machine]
  cases asks : Instruction.asks operand with
  | false => exact ⟨rfl, rfl, h.timing, h.bytes⟩
  | true =>
    rw [asks] at room
    have byte := h.bytes 0 room
    rw [if_pos rfl, if_pos rfl, byte]
    -- Both sources are one byte further, so they agree on one byte less.
    refine ⟨rfl, rfl, h.timing, ?_⟩
    intro j inside
    simp only [Bool.toNat_true] at inside
    rw [RandomSource.stream_after, RandomSource.stream_after]
    exact h.bytes (1 + j) (by omega)

theorem cycle (h : Twins k c d) (room : (c.asks .cycle).toNat ≤ k) :
    d.cycle.failure? = c.cycle.failure? ∧
      Twins (k - (c.asks .cycle).toNat) c.cycle.console d.cycle.console := by
  cases running : c.machine.fault with
  | some f =>
    have idle : c.fetching = none := by simp only [fetching, running]
    rw [cycle_halted running, cycle_halted (h.machine ▸ running), asks_of_fetching_none idle]
    exact ⟨rfl, h⟩
  | none =>
    rw [cycle_eq_ended running, cycle_eq_ended (h.machine ▸ running)]
    cases fetched : c.machine.fetch with
    | error e =>
      have idle : c.fetching = none := by simp only [fetching, running, fetched]
      have looked : Twins k c.look d.look := ⟨by simp only [look, h.machine], h.timing, h.bytes⟩
      rw [advance_of_failure fetched, advance_of_failure (h.machine ▸ fetched),
        asks_of_fetching_none idle]
      exact ended rfl looked
    | ok word =>
      have passed : Twins k (c.look.pass word) (d.look.pass word) := by
        rw [pass_eq, pass_eq]
        exact ⟨by simp only [look, note, h.machine], h.timing, h.bytes⟩
      rw [asks_of_word running fetched] at room ⊢
      rw [advance_of_word fetched, advance_of_word (h.machine ▸ fetched)]
      obtain ⟨same, after⟩ := passed.process room
      exact ended same after

/-- Twins do the same in an operation, and fail in it alike, as long as they agree on the byte that
it may take. -/
theorem perform (h : Twins k c d) (operation : Operation)
    (room : (c.asks operation).toNat ≤ k) :
    (d.perform operation).failure? = (c.perform operation).failure? ∧
      Twins (k - (c.asks operation).toNat) (c.perform operation).console
        (d.perform operation).console := by
  cases operation with
  | process operand => exact h.process room
  | cycle => exact h.cycle room
  | reset => exact ⟨rfl, of_reset h.timing h.bytes⟩
  | clearRedraw =>
    refine ⟨rfl, ?_, h.timing, h.bytes⟩
    simp only [Console.perform, clearRedraw, h.machine]
  | tick => exact ⟨rfl, h.tick⟩
  | load rom =>
    simp only [Console.perform, load, h.machine]
    cases c.machine.load rom with
    | ok m => exact ⟨rfl, rfl, h.timing, h.bytes⟩
    | error e => exact ⟨rfl, h⟩
  | setKeys | press | release | fetch =>
    simp only [Console.perform, h.machine]
    exact h.update _

theorem sight (h : Twins k c d) (room : (c.asks .cycle).toNat ≤ k) : d.sight = c.sight := by
  simp only [Console.sight, h.fetching_eq, (h.cycle room).1]

/-- Twins stay twins in a run that takes no more bytes than they agree on. -/
theorem performAll (h : Twins k c d) {operations : List Operation}
    (room : c.asked operations ≤ k) :
    d.trace operations = c.trace operations ∧
      Twins (k - c.asked operations) (c.performAll operations) (d.performAll operations) := by
  induction operations generalizing c d k with
  | nil => exact ⟨rfl, h⟩
  | cons operation rest ih =>
    simp only [asked] at room ⊢
    obtain ⟨-, next⟩ := h.perform operation (by omega)
    obtain ⟨later, ends⟩ := ih next (by omega)
    rw [Nat.sub_sub] at ends
    refine ⟨?_, ends⟩
    -- Only cycles are seen in a trace.
    by_cases cycle : operation = .cycle
    · subst cycle
      rw [trace_cycle, trace_cycle, h.sight (by omega)]
      exact congrArg (c.sight :: ·) later
    · rw [trace_of_ne d cycle, trace_of_ne c cycle, later]

end Twins

/-! ## Runs of cycles -/

theorem asked_append (c : Console σ) (first second : List Operation) :
    c.asked (first ++ second) = c.asked first + (c.performAll first).asked second := by
  induction first generalizing c with
  | nil => simp [asked, Console.performAll]
  | cons operation rest ih =>
    simp only [List.cons_append, asked, ih, Nat.add_assoc]
    rfl

/-- Twins hold the same machine at every moment of such a run. -/
theorem Twins.machine_along {k : Nat} {c : Console σ} {d : Console τ} (h : Twins k c d)
    {operations before : List Operation} (room : c.asked operations ≤ k)
    (first : before <+: operations) :
    (d.performAll before).machine = (c.performAll before).machine := by
  obtain ⟨after, rfl⟩ := first
  rw [asked_append] at room
  exact (h.performAll (by omega)).2.machine

theorem consistent_performAll_cycled (h : c.machine.Consistent) {operations : List Operation}
    (cycled : ∀ operand, .process operand ∉ operations) :
    (c.performAll operations).machine.Consistent := by
  induction operations generalizing c with
  | nil => exact h
  | cons operation rest ih =>
    have first : (c.perform operation).console.machine.Consistent := by
      cases operation with
      | process operand => exact absurd List.mem_cons_self (cycled operand)
      | reset => exact consistent_reset c
      | _ => exact consistent_perform_continues h rfl
    exact ih first fun operand later => cycled operand (List.mem_cons_of_mem _ later)

/-- A cycle that takes a byte leaves its masked value in the register that the operand names. -/
theorem cycle_random (h : c.machine.Nominal) {address : Int} {x : Register} {mask : Fin 256}
    (fetching : c.fetching = some (address, (0xC000 + 0x100 * x.val + mask.val : Int))) :
    c.cycle.failure? = none ∧
      c.cycle.console.machine.reg x = Bits.and mask.val (RandomSource.stream c.source 0) := by
  have executing : c.executing = some (.random x mask) := by
    rw [executing_eq_bind, fetching]
    exact Instruction.decode_random x mask
  obtain ⟨-, -, decoded⟩ := (executing_eq_some_iff h).mp executing
  have asks : Instruction.asks c.nextWord = true := by
    rw [← Instruction.any_drawsByte_decode, decoded]
    rfl
  have byte : (c.fetched.supply c.nextWord).1 = RandomSource.stream c.source 0 := by
    rw [supply_eq, if_pos asks]
    rfl
  obtain ⟨executed, machine⟩ := executed_of_ok h executing rfl
  have size : c.machine.fetched.registers.size = 16 := h.registers
  refine ⟨success_of_executed executed, ?_⟩
  rw [machine, byte]
  exact (reg_setReg size x x _).trans (if_pos rfl)

/-- The first word of a program is what is fetched after a reset. -/
theorem fetching_reset_load (c : Console σ) {words : List (BitVec 16)}
    (fits : 2 * words.length ≤ programSpace) {first : BitVec 16} (starts : words[0]? = some first) :
    (c.reset.load (bigEndian words)).console.fetching =
      some ((0x200 : Int), (first.toNat : Int)) := by
  obtain ⟨inside, rfl⟩ := List.getElem?_eq_some_iff.mp starts
  have machine := machine_reset_load c (length_bigEndian words ▸ fits)
  have counter : (initial.loaded (bigEndian words)).counter = 0x200 := rfl
  have running : (initial.loaded (bigEndian words)).fault = none := rfl
  have word := wordAt_loaded_bigEndian (m := initial) size_glyphMemory fits inside
  have fetched := fetch_eq (consistent_reset_load c (bigEndian words)).toNominal
  rw [machine, if_neg (by rw [counter]; omega), counter] at fetched
  simp only [fetching, machine, running, fetched, counter]
  exact congrArg (fun word => some (_, word)) word

/-- From a reset on the source is called once for each cycle that executes an operand `Cxkk`, and
the byte of such a cycle is the one whose number is that of the cycles of this kind before it. Two
runs of the same machine, with the same doings of the host, show the same and go through the same
machines, as long as their sources agree on as many bytes as the first of them takes. -/
theorem random_bytes_in_order (c : Console σ) (d : Console τ) {operations : List Operation}
    (cycled : ∀ operand, .process operand ∉ operations) :
    (let e := c.reset.performAll operations
      let taken := c.reset.asked operations
      e.drawn = c.drawn + taken ∧ e.source = RandomSource.after c.source taken ∧
      ∀ address (x : Register) (mask : Fin 256),
        e.fetching = some (address, (0xC000 + 0x100 * x.val + mask.val : Int)) →
        e.cycle.failure? = none ∧
        e.cycle.console.machine.reg x = Bits.and mask.val (RandomSource.stream c.source taken)) ∧
    ∀ k, Twins k c d → c.asked operations ≤ k →
      d.trace operations = c.trace operations ∧
      ∀ before, before <+: operations →
        (d.performAll before).machine = (c.performAll before).machine := by
  constructor
  · intro e taken
    obtain ⟨drawn, source⟩ : Takes taken c e := takes_reset_performAll c operations
    have fresh : c.reset.machine.Consistent := consistent_reset c
    have nominal : e.machine.Nominal := (consistent_performAll_cycled fresh cycled).toNominal
    refine ⟨drawn, source, ?_⟩
    intro address x mask fetching
    have set := cycle_random nominal fetching
    rw [source, RandomSource.stream_after, Nat.add_zero] at set
    exact set
  · intro k twins room
    exact ⟨(twins.performAll room).1, fun before first => twins.machine_along room first⟩

/-- A program that asks for one byte does the same with two tapes that differ after their first
byte, and puts that byte, masked, into the register that it names. -/
theorem random_bytes_in_order_two_tapes :
    let c := (assemble ⟨true, true⟩ (Tape.repeating #[0x27, 9]) .debug).reset
    let d := (assemble ⟨true, true⟩ (Tape.repeating #[0x27]) .debug).reset
    let program := Operation.load (bigEndian [0xC30F])
    (∀ operand, .process operand ∉ [program]) ∧ (∀ operand, .process operand ∉ [program, .cycle]) ∧
    (c.reset.performAll [program]).fetching = some (0x200, 0xC30F) ∧
    (c.reset.performAll [program]).cycle.console.machine.reg 3 = 7 ∧
    Twins 1 c d ∧ c.asked [program, .cycle] ≤ 1 ∧
    d.trace [program, .cycle] = c.trace [program, .cycle] := by
  intro c d program
  have loading : ∀ operand, .process operand ∉ [program] := by
    intro operand
    simp [program]
  have cycled : ∀ operand, .process operand ∉ [program, .cycle] := by
    intro operand
    simp [program]
  have fits : 2 * [(0xC30F : BitVec 16)].length ≤ programSpace := by decide
  have starts : [(0xC30F : BitVec 16)][0]? = some 0xC30F := rfl
  have fetching : (c.reset.performAll [program]).fetching = some (0x200, 0xC30F) :=
    fetching_reset_load c fits starts
  have twins : Twins 1 c d := by
    refine .of_reset rfl fun j first => ?_
    obtain rfl : j = 0 := by omega
    rfl
  have room : c.asked [program, .cycle] ≤ 1 := by
    simp only [asked, asks, program, Bool.toNat_false]
    have once := Bool.toNat_le ((c.perform program).console.asks .cycle)
    simp only [asks, program] at once
    omega
  obtain ⟨-, -, set⟩ := (random_bytes_in_order c d loading).1
  have byte := (set 0x200 3 15 fetching).2
  have first : RandomSource.stream c.source (c.reset.asked [program]) = 0x27 := rfl
  have masked : Bits.and (15 : Fin 256).val 0x27 = 7 := by decide
  rw [first, masked] at byte
  have alike := ((random_bytes_in_order c d cycled).2 1 twins room).1
  exact ⟨loading, cycled, fetching, byte, twins, room, alike⟩

end Console

end HexConsole
