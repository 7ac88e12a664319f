import HexConsole.Proofs.Draws
import HexConsole.Proofs.Loose

/-!
# Resets

A reset writes every part of the machine. Main statement: whatever two consoles have gone through,
after a reset they hold the same machine, which is listed here part by part, and with the same
bytes from their sources they cannot be told apart again: every operation gives back the same
and fails alike, and leaves the same machine.
-/
namespace HexConsole

namespace Machine

/-- A machine as a reset leaves it. -/
structure Fresh (m : Machine) : Prop where
  size : m.memory.size = 4096
  font : ∀ k < 80, m.memory[k]? = glyphs[k]?
  zeros : ∀ k, 80 ≤ k → k < 4096 → m.memory[k]? = some 0
  registers : m.registers = Array.replicate 16 0
  index : m.index = 0
  counter : m.counter = 0x200
  stack : m.stack = Vector.replicate 16 0
  depth : m.depth = 0
  delay : m.delay = 0
  sound : m.sound = 0
  keys : m.keys = Vector.replicate 16 false
  dark : ∀ k, m.frame.lit k = false
  redraw : m.redraw = false
  tone : m.tone = false
  operand : m.operand = 0
  operandAddress : m.operandAddress = 0x200
  running : m.fault = none

/-- There is one fresh machine. -/
theorem fresh_iff {m : Machine} : m.Fresh ↔ m = initial := by
  constructor
  · intro h
    have memory : m.memory = glyphMemory := by
      apply Array.ext_getElem?
      intro k
      rw [getElem?_glyphMemory]
      split_ifs with glyph inside
      · exact h.font k glyph
      · exact h.zeros k (by omega) inside
      · exact Array.getElem?_eq_none (by rw [h.size]; omega)
    have frame : m.frame = .blank := Frame.ext_lit fun k => by rw [h.dark, Frame.lit_blank]
    cases m
    simp only [initial, poweredOff, mk.injEq]
    exact ⟨memory, h.registers, h.index, h.counter, h.stack, h.depth, h.delay, h.sound, h.keys,
      frame, h.redraw, h.tone, h.operand, h.operandAddress, h.running⟩
  · rintro rfl
    have cell := getElem?_glyphMemory
    constructor
    case size => exact size_glyphMemory
    case font => exact fun k glyph => (cell k).trans (if_pos glyph)
    case zeros =>
      intro k past inside
      exact (cell k).trans ((if_neg (by omega)).trans (if_pos inside))
    case dark => exact Frame.lit_blank
    all_goals rfl

end Machine

theorem Outcome.giving_congr {σ τ : Type} {o : Outcome σ} {p : Outcome τ}
    (same : p.failure? = o.failure?) (reply : Reply) : p.giving reply = o.giving reply := by
  unfold giving
  rw [same]

namespace Console

variable {σ τ : Type}

/-- A second reset only notes that it took place. -/
theorem reset_reset (c : Console σ) : c.reset.reset = c.reset.note .initialized := by
  have same : { c.reset with machine := c.reset.machine.reset } = c.reset := by
    rw [Machine.reset_eq_initial, ← machine_reset c]
  exact congrArg (note · .initialized) same

variable [RandomSource σ] [RandomSource τ]

/-- What the operations of a run give back, one after the other. -/
def replies (c : Console σ) : List Operation → List (Except Failure Reply)
  | [] => []
  | operation :: rest => c.reply operation :: (c.perform operation).console.replies rest

/-- No operation changes what the machine is wired to. -/
theorem wiring_kept (c : Console σ) (operations : List Operation) :
    (c.performAll operations).wiring = c.wiring := by
  induction operations generalizing c with
  | nil => rfl
  | cons operation rest ih =>
    have first : (c.perform operation).console.wiring = c.wiring := by
      cases operation with
      | reset => exact (wired_reset c).2
      | process operand => exact wiring_supply c operand
      | _ => exact wiring_perform c rfl
    exact (ih _).trans first

namespace Twins

variable {k : Nat} {c : Console σ} {d : Console τ}

theorem reply (h : Twins k c d) (operation : Operation) (room : (c.asks operation).toNat ≤ k) :
    d.reply operation = c.reply operation := by
  have same := (h.perform operation room).1
  cases operation with
  | fetch => simp only [Console.reply, h.machine]
  | tick => simp only [Console.reply, h.tick.machine]
  | _ => exact Outcome.giving_congr same _

/-- Twins give the same replies in a run that takes no more bytes than they agree on. -/
theorem replies (h : Twins k c d) {operations : List Operation} (room : c.asked operations ≤ k) :
    d.replies operations = c.replies operations := by
  induction operations generalizing c d k with
  | nil => rfl
  | cons operation rest ih =>
    simp only [asked] at room
    have first := h.reply operation (by omega)
    have later := ih (h.perform operation (by omega)).2 (by omega)
    simp only [Console.replies, first, later]

end Twins

/-- Two consoles that are timed alike hold the same machine after a reset, whatever has been done
with them before, and a second reset only notes that it took place. From then on they go through
the same machines, with the same replies and failures, as long as their sources agree on as many
bytes as one of them takes. -/
theorem reset_erases_history (c : Console σ) (d : Console τ)
    (timing : d.wiring.ticksAfterCycle = c.wiring.ticksAfterCycle)
    (first second : List Operation) :
    let c' := (c.performAll first).reset
    let d' := (d.performAll second).reset
    c'.machine.Fresh ∧ d'.machine = c'.machine ∧
    (c'.reset.machine = c'.machine ∧ c'.reset = c'.note .initialized) ∧
    ∀ operations,
      (∀ j < c'.asked operations,
        RandomSource.stream d'.source j = RandomSource.stream c'.source j) →
      d'.replies operations = c'.replies operations ∧
      ∀ before, before <+: operations →
        (d'.performAll before).machine = (c'.performAll before).machine := by
  intro c' d'
  have alike : (d.performAll second).wiring.ticksAfterCycle =
      (c.performAll first).wiring.ticksAfterCycle := by
    rw [wiring_kept, wiring_kept, timing]
  refine ⟨Machine.fresh_iff.mpr (machine_reset _), ?_, ⟨?_, reset_reset _⟩, ?_⟩
  · rw [machine_reset, machine_reset]
  · rw [machine_reset, machine_reset]
  intro operations bytes
  rw [(wired_reset (d.performAll second)).1, (wired_reset (c.performAll first)).1] at bytes
  have twins : Twins (c'.asked operations) c' d' := .of_reset alike bytes
  have room : c'.asked operations ≤ c'.asked operations := Nat.le_refl _
  exact ⟨twins.replies room, fun before first => twins.machine_along room first⟩

/-- One console has drawn a byte and holds a key down, the other has failed to return from a call.
After a reset they reply alike to an operand that draws the next byte of the one and the first
byte of the other. -/
theorem reset_erases_history_two_pasts :
    let c := assemble ⟨true, true⟩ (Tape.repeating #[7, 9]) .debug
    let d := assemble ⟨true, false⟩ (Tape.repeating #[9]) .debug
    let c' := (c.performAll [.process 0xC0FF, .press 3]).reset
    let d' := (d.performAll [.process 0x00EE]).reset
    d.wiring.ticksAfterCycle = c.wiring.ticksAfterCycle ∧ d'.machine = c'.machine ∧
    (∀ j < c'.asked [.process 0xC1FF],
      RandomSource.stream d'.source j = RandomSource.stream c'.source j) ∧
    d'.replies [.process 0xC1FF] = c'.replies [.process 0xC1FF] := by
  intro c d c' d'
  have timing : d.wiring.ticksAfterCycle = c.wiring.ticksAfterCycle := rfl
  have erased := reset_erases_history c d timing [.process 0xC0FF, .press 3] [.process 0x00EE]
  have bytes : ∀ j < c'.asked [.process 0xC1FF],
      RandomSource.stream d'.source j = RandomSource.stream c'.source j := by
    intro j inside
    obtain rfl : j = 0 := by
      have once : c'.asked [.process 0xC1FF] = 1 := by decide
      omega
    have taken := (takes_performAll c [.process 0xC0FF, .press 3]).source
    have none := (takes_performAll d [.process 0x00EE]).source
    rw [(wired_reset (d.performAll _)).1, (wired_reset (c.performAll _)).1, taken, none]
    decide
  obtain ⟨-, same, -, later⟩ := erased
  exact ⟨timing, same, bytes, (later _ bytes).1⟩

end Console

end HexConsole
