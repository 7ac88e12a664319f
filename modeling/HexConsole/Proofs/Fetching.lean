import HexConsole.Proofs.Loading
import HexConsole.Proofs.Safety

/-!
# Loading and fetching

A program goes into memory as it is or not at all. Main statement: loading copies the bytes of a
program that fits and touches nothing else, a program that does not fit is refused without a
trace, and what a fetch reads at the places of a program written as operands are these operands.
-/
namespace HexConsole

namespace Machine

variable {m : Machine}

theorem load_of_excess {rom : List Byte} (excess : programSpace < rom.length) :
    m.load rom = .error (.fault (.romTooLarge rom.length programSpace)) := by
  have refused : refusal? rom.length = some (.fault (.romTooLarge rom.length programSpace)) :=
    if_pos excess
  simp only [load, refused]

/-- The machine with its counter at the operand of a program that has so many before it. -/
def atOperand (m : Machine) (k : Nat) : Machine :=
  { m with counter := programStart + 2 * k }

/-- A fetch reads an operand of a loaded program and leaves the machine alone. -/
theorem run_fetch_loaded (h : m.Nominal) {words : List (BitVec 16)}
    (fits : 2 * words.length ≤ programSpace) {k : Nat} (inside : k < words.length) :
    let n := (m.loaded (bigEndian words)).atOperand k
    Step.fetch.run n = .ok words[k].toNat n := by
  intro n
  have counter : n.counter = programStart + 2 * k := rfl
  have space : programStart + programSpace = 4096 := rfl
  have nominal : n.Nominal :=
    { h with
      memory := size_loaded h.memory (by simpa using fits)
      counter := by omega }
  have word : n.wordAt n.counter = words[k].toNat :=
    wordAt_loaded_bigEndian h.memory fits inside
  rw [Step.run_fetch, fetch_eq nominal, if_neg (by omega), word]

/-- Programs of one length whose operands are fetched alike are the same program. -/
theorem eq_of_run_fetch_eq (h : m.Nominal) {first second : List (BitVec 16)}
    (fits : 2 * first.length ≤ programSpace) (lengths : first.length = second.length)
    (alike : ∀ k < first.length,
      ((m.loaded (bigEndian first)).atOperand k).fetch =
        ((m.loaded (bigEndian second)).atOperand k).fetch) :
    first = second := by
  apply List.ext_getElem lengths
  intro k inside inside'
  have same := alike k inside
  unfold fetch at same
  rw [run_fetch_loaded h fits inside, run_fetch_loaded h (lengths ▸ fits) inside'] at same
  have value := Except.ok.inj same
  apply BitVec.eq_of_toNat_eq
  omega

end Machine

namespace Console

open Machine

variable {σ : Type} {c : Console σ}

theorem load_of_excess {rom : List Byte} (excess : programSpace < rom.length) :
    c.load rom = ⟨c, some (.fault (.romTooLarge rom.length programSpace))⟩ := by
  simp only [load, Machine.load_of_excess excess]

variable [RandomSource σ]

/-- On every console that a host can reach, a program of at most 3584 bytes is copied to the cells
from `0x200` on and nothing else changes but the journal, while a longer one is refused and
nothing changes at all. What is fetched at the places of at most 1792 operands, loaded with their
high bytes first, are these operands, so programs of one length that are fetched alike are the
same. -/
theorem load_fetch_roundtrip (reached : Reachable c) :
    (∀ rom : List Byte, rom.length ≤ 3584 →
      let o := c.load rom
      let memory := o.console.machine.memory
      o = ⟨{ c with machine := { c.machine with memory } }.note (.loaded rom.length), none⟩ ∧
      memory.size = 4096 ∧
      (∀ i (inside : i < rom.length), memory[0x200 + i]? = some rom[i]) ∧
      ∀ k, k < 0x200 ∨ 0x200 + rom.length ≤ k → memory[k]? = c.machine.memory[k]?) ∧
    (∀ rom : List Byte, 3584 < rom.length →
      c.load rom = ⟨c, some (.fault (.romTooLarge rom.length 3584))⟩) ∧
    (∀ words : List (BitVec 16), words.length ≤ 1792 → ∀ k (inside : k < words.length),
      let m := (c.load (bigEndian words)).console.machine.atOperand k
      Step.fetch.run m = .ok words[k].toNat m) ∧
    ∀ first second : List (BitVec 16), first.length ≤ 1792 → first.length = second.length →
      (∀ k < first.length,
        ((c.load (bigEndian first)).console.machine.atOperand k).fetch =
          ((c.load (bigEndian second)).console.machine.atOperand k).fetch) →
      first = second := by
  have nominal : c.machine.Nominal := reached.consistent.toNominal
  have size := nominal.memory
  have loads {words : List (BitVec 16)} (few : words.length ≤ 1792) :
      (c.load (bigEndian words)).console.machine = c.machine.loaded (bigEndian words) := by
    have fits : (bigEndian words).length ≤ programSpace := by
      rw [length_bigEndian]
      exact Nat.mul_le_mul_left 2 few
    rw [load_of_fits fits]
    rfl
  have space : programSpace = 3584 := rfl
  rw [← space]
  refine ⟨?_, ?_, ?_, ?_⟩
  · intro rom fits
    rw [load_of_fits fits]
    refine ⟨rfl, size_loaded size fits, ?_, ?_⟩
    · intro i inside
      have offset : 0x200 + i - programStart = i := Nat.add_sub_cancel_left programStart i
      refine (getElem?_loaded size fits (0x200 + i)).trans ?_
      rw [if_pos (by unfold programStart; omega), offset, List.getElem?_eq_getElem inside]
    · intro k outside
      refine (getElem?_loaded size fits k).trans ?_
      rw [if_neg (by unfold programStart; omega)]
  · intro rom excess
    have available : (programSpace : Int) = 3584 := rfl
    rw [Console.load_of_excess excess, available]
  · intro words few k inside
    rw [loads few]
    exact run_fetch_loaded nominal (Nat.mul_le_mul_left 2 few) inside
  · intro first second few lengths alike
    rw [loads few, loads (lengths ▸ few)] at alike
    exact eq_of_run_fetch_eq nominal (Nat.mul_le_mul_left 2 few) lengths alike

/-- The second of two operands is fetched from the third and fourth byte of the program, also by a
machine that has not been reset, which refuses a program that is one byte too long. -/
theorem load_fetch_roundtrip_two_operands :
    let c := assemble ⟨true, true⟩ (Tape.repeating #[]) .debug
    let words : List (BitVec 16) := [0x00E0, 0x1202]
    let o := c.load (bigEndian words)
    let m := o.console.machine.atOperand 1
    Reachable c ∧ o.failure? = none ∧ o.console.machine.memory[0x203]? = some 0x02 ∧
    Step.fetch.run m = .ok 0x1202 m ∧
    (c.load (List.replicate 3585 0)).failure? = some (.fault (.romTooLarge 3585 3584)) := by
  intro c words o m
  have reached : Reachable c := .assembled _ _ _
  obtain ⟨copied, refused, fetched, -⟩ := load_fetch_roundtrip reached
  obtain ⟨done, -, cells, -⟩ := copied (bigEndian words) (by decide)
  have excess := refused (List.replicate 3585 0) (by rw [List.length_replicate]; omega)
  refine ⟨reached, ?_, cells 3 (by decide), fetched words (by decide) 1 (by decide), ?_⟩
  · exact congrArg Outcome.failure? done
  · rw [excess, List.length_replicate]
    rfl

end Console

end HexConsole
