import HexConsole.Proofs.Alike

/-!
# Traces

What the cycles of a run show from outside: which words they execute, where, and how they fail.
Main statement: consoles that are alike show the same in their next cycle, if its instruction
finds the same in both, so that runs can be compared from the front.
-/
namespace HexConsole

/-- What a cycle shows: the address and the word that it executes, if there is one, and the
failure that it ends with. -/
structure Sight where
  fetched : Option (Int × Int)
  failure? : Option Failure
  deriving DecidableEq, Repr

/-- The instruction that a cycle executes, if its word is one. -/
def Sight.instruction (s : Sight) : Option Instruction :=
  s.fetched.bind fun fetched => Instruction.decode fetched.2

namespace Console

open Machine

variable {σ τ : Type} [RandomSource σ] [RandomSource τ]

/-- What the next cycle shows. -/
def sight (c : Console σ) : Sight := ⟨c.fetching, c.cycle.failure?⟩

/-- What the cycles of a run show, in order. -/
def trace (c : Console σ) : List Operation → List Sight
  | [] => []
  | operation :: rest =>
    let later := (c.perform operation).console.trace rest
    if operation = .cycle then c.sight :: later else later

theorem instruction_sight (c : Console σ) : c.sight.instruction = c.executing :=
  (executing_eq_bind c).symm

theorem trace_cycle (c : Console σ) (rest : List Operation) :
    c.trace (.cycle :: rest) = c.sight :: c.cycle.console.trace rest := by
  rw [trace, if_pos rfl]
  rfl

theorem trace_of_ne (c : Console σ) {operation : Operation} (other : operation ≠ .cycle)
    (rest : List Operation) :
    c.trace (operation :: rest) = (c.perform operation).console.trace rest := by
  rw [trace, if_neg other]

theorem trace_append (c : Console σ) (first second : List Operation) :
    c.trace (first ++ second) = c.trace first ++ (c.performAll first).trace second := by
  induction first generalizing c with
  | nil => rfl
  | cons operation rest ih =>
    have later := ih (c.perform operation).console
    by_cases cycle : operation = .cycle
    · subst cycle
      rw [List.cons_append, trace_cycle, trace_cycle]
      exact congrArg (c.sight :: ·) later
    · rw [List.cons_append, trace_of_ne c cycle, trace_of_ne c cycle]
      exact later

theorem mem_trace_cons {c : Console σ} {operation : Operation} {rest : List Operation} {s : Sight}
    (seen : s ∈ (c.perform operation).console.trace rest) : s ∈ c.trace (operation :: rest) := by
  by_cases cycle : operation = .cycle
  · subst cycle
    rw [trace_cycle]
    exact List.mem_cons_of_mem _ seen
  · rw [trace_of_ne c cycle]
    exact seen

variable {parts : List Facet} {c : Console σ} {d : Console τ}

theorem sight_alike (h : Alike parts c d) (hc : c.machine.Nominal) (hd : d.machine.Nominal)
    (same : ∀ i, c.executing = some i → FindsSame c.machine d.machine i) : d.sight = c.sight := by
  have failure := (cycle_alike h hc hd same).1
  simp only [sight, h.fetching_eq hc hd, failure]

/-- The traces of two consoles that are alike agree if they agree after the first operation. -/
theorem trace_cons_alike (h : Alike parts c d) (hc : c.machine.Nominal) (hd : d.machine.Nominal)
    {operation : Operation}
    (same : operation = .cycle → ∀ i, c.executing = some i → FindsSame c.machine d.machine i)
    {first second : List Operation} (later : (d.perform operation).console.trace second =
      (c.perform operation).console.trace first) :
    d.trace (operation :: second) = c.trace (operation :: first) := by
  by_cases cycle : operation = .cycle
  · subst cycle
    rw [trace_cycle, trace_cycle, sight_alike h hc hd (same rfl)]
    exact congrArg (c.sight :: ·) later
  · rw [trace_of_ne d cycle, trace_of_ne c cycle, later]

end Console

end HexConsole
