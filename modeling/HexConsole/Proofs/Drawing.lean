import HexConsole.Proofs.Encoding
import HexConsole.Proofs.Reachable

/-!
# Drawing a sprite

What an operand of family D does to a nominal machine, as far as a host can see it. The
coordinates are those that the registers hold before the instruction, also where one of
them is the flag itself. Main statement: a pixel of the frame is inverted exactly if the
sprite has its bit set, and the flag tells whether one of these pixels was lit.
-/
namespace HexConsole

theorem Instruction.decode_draw (x y : Register) (height : Fin 16) :
    decode (0xD000 + 0x100 * x.val + 0x10 * y.val + height.val) = some (.draw x y height) := by
  apply decode_of_word
  · simp only [word]
    omega
  · simp only [word]
    omega

namespace Machine

/-- How a machine looks after a sprite of some height, read from the index on, has been
drawn on it at the place that two of its registers give. -/
structure SpriteDrawn (m : Machine) (x y : Register) (height : Nat) (n : Machine) : Prop where
  pixels : ∀ u v, m.frame.inBounds u v = true →
    n.frame.shows u v = (m.frame.shows u v ^^ m.sprite (m.reg x) (m.reg y) m.index height u v)
  flag : n.reg 15 = 1 ∧ (∃ u v, m.frame.inBounds u v = true ∧ m.frame.shows u v = true ∧
      m.sprite (m.reg x) (m.reg y) m.index height u v = true) ∨
    n.reg 15 = 0 ∧ ¬∃ u v, m.frame.inBounds u v = true ∧ m.frame.shows u v = true ∧
      m.sprite (m.reg x) (m.reg y) m.index height u v = true
  registers : n.registers.size = m.registers.size ∧ ∀ z, z ≠ 15 → n.reg z = m.reg z
  redraw : n.redraw = true
  others : n = { m with
    operand := n.operand
    registers := n.registers
    frame := n.frame
    redraw := n.redraw }

variable {m : Machine}

theorem spriteDrawn_drawn (h : m.registers.size = 16) (x y : Register) (height : Nat) :
    m.SpriteDrawn x y height (m.drawn x y height) where
  pixels u v on := Frame.shows_inverted m.frame _ on
  flag := by
    rw [← Frame.meets_iff m.frame (by decide), reg_drawn h, if_pos rfl]
    cases m.frame.meets (m.sprite (m.reg x) (m.reg y) m.index height) <;> simp
  registers := by
    refine ⟨size_registers_setReg _ _ _, ?_⟩
    intro z other
    rw [reg_drawn h, if_neg other.symm]
  redraw := rfl
  others := rfl

/-- Drawing does not depend on the operand that the machine has noted. -/
theorem SpriteDrawn.of_noted {x y : Register} {height : Nat} {operand : Int} {n : Machine}
    (drawn : { m with operand }.SpriteDrawn x y height n) : m.SpriteDrawn x y height n :=
  { drawn with }

end Machine

namespace Console

open Machine

variable {σ : Type} [RandomSource σ]

/-- Drawing a sprite whose rows lie in memory. Bits of it off the frame have no effect, and
nothing changes but the frame, the flag, the request for a redraw and the operand. -/
theorem process_draw {c : Console σ} (h : c.machine.Nominal) (x y : Register) (height : Fin 16)
    (inside : height.val = 0 ∨ c.machine.index + height.val ≤ 4096) :
    ∃ n, c.process (0xD000 + 0x100 * x.val + 0x10 * y.val + height.val) =
        ⟨{ c with machine := n }, none⟩ ∧
      n.operand = 0xD000 + 0x100 * x.val + 0x10 * y.val + height.val ∧
      c.machine.SpriteDrawn x y height.val n := by
  have decoded := Instruction.decode_draw x y height
  generalize (0xD000 + 0x100 * x.val + 0x10 * y.val + height.val : Int) = word at decoded ⊢
  have supplied : (c.supply word).2 = c := by simp [supply, decoded, Instruction.drawsByte]
  have done : c.attempt word = .ok ({ c.machine with operand := word }.drawn x y height.val) := by
    simp only [attempt, obeyed, decoded, effect]
    exact withinMemory_eq_ok_iff.mpr ⟨inside, rfl⟩
  refine ⟨_, ?_, ?_, (spriteDrawn_drawn (h.noting word).registers x y height.val).of_noted⟩
  · rw [process_eq h, done, supplied]
  · rfl

/-- The shape of the digit zero in the top left corner, placed by the flag register. -/
theorem process_draw_first_glyph :
    let c := (assemble ⟨true, true⟩ (Tape.repeating #[]) .debug).reset
    (c.machine.Nominal ∧ c.machine.index + 5 ≤ 4096) ∧
      ∃ n, c.process 0xDFF5 = ⟨{ c with machine := n }, none⟩ ∧
        c.machine.SpriteDrawn 15 15 5 n := by
  intro c
  have nominal : c.machine.Nominal := (consistent_reset _).toNominal
  have inside : c.machine.index + 5 ≤ 4096 := by
    rw [machine_reset]
    decide
  obtain ⟨n, ends, -, drawn⟩ := process_draw nominal 15 15 5 (.inr inside)
  exact ⟨⟨nominal, inside⟩, n, ends, drawn⟩

end Console

end HexConsole
