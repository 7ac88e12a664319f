import HexConsole.Proofs.Loading
import HexConsole.Proofs.Trace

/-!
# Upkeep goes unnoticed

A host keeps the time and acknowledges frames when it likes. Main statement: two machines that
differ only in their timers and their request for a redraw execute the same words at the same
addresses and end with the same fault, whenever either of them is ticked or acknowledged, as long
as the first of them does not read its delay timer.
-/
namespace HexConsole

/-- The operations by which a host keeps the time and acknowledges frames. -/
def Operation.upkeep : Operation → Bool
  | tick => true
  | clearRedraw => true
  | _ => false

namespace Console

open Machine

variable {σ τ : Type} [RandomSource σ] [RandomSource τ] {c : Console σ} {d : Console τ}

/-! ## Upkeep on one side -/

theorem ne_cycle_of_upkeep {operation : Operation} (upkeep : operation.upkeep = true) :
    operation ≠ .cycle := by
  rintro rfl
  cases upkeep

theorem continues_of_upkeep {operation : Operation} (upkeep : operation.upkeep = true) :
    operation.continues = true := by
  cases operation with
  | reset | process => cases upkeep
  | _ => rfl

theorem trace_upkeep (c : Console σ) {operations : List Operation}
    (upkeep : ∀ o ∈ operations, o.upkeep = true) : c.trace operations = [] := by
  induction operations generalizing c with
  | nil => rfl
  | cons operation rest ih =>
    obtain ⟨first, others⟩ := List.forall_mem_cons.mp upkeep
    rw [trace_of_ne c (ne_cycle_of_upkeep first)]
    exact ih _ others

theorem Alike.upkeep_left (h : Alike [.clock, .redraw] c d) {operation : Operation}
    (upkeep : operation.upkeep = true) :
    Alike [.clock, .redraw] (c.perform operation).console d := by
  cases operation with
  | tick => exact h.tick_left (by simp)
  | clearRedraw => exact ⟨h.machine.withRedraw_left (by simp) false, h.bytes, h.wiring⟩
  | _ => cases upkeep

theorem Alike.upkeep_right (h : Alike [.clock, .redraw] c d) {operation : Operation}
    (upkeep : operation.upkeep = true) :
    Alike [.clock, .redraw] c (d.perform operation).console := by
  cases operation with
  | tick => exact h.tick_right (by simp)
  | clearRedraw => exact ⟨h.machine.withRedraw_right (by simp) false, h.bytes, h.wiring⟩
  | _ => cases upkeep

theorem Alike.performAll_upkeep (h : Alike [.clock, .redraw] c d) {operations : List Operation}
    (upkeep : ∀ o ∈ operations, o.upkeep = true) :
    Alike [.clock, .redraw] c (d.performAll operations) := by
  induction operations generalizing d with
  | nil => exact h
  | cons operation rest ih =>
    obtain ⟨first, others⟩ := List.forall_mem_cons.mp upkeep
    exact ih (h.upkeep_right first) others

/-! ## Two runs -/

/-- A second run does what the first one does next, after some upkeep of its own. -/
theorem upkeep_step (h : Alike [.clock, .redraw] c d) (hc : c.machine.Consistent)
    (hd : d.machine.Consistent) {operation : Operation} (continues : operation.continues = true)
    (unread : operation = .cycle → ∀ x, c.executing ≠ some (.readDelay x))
    {idle : List Operation} (upkeep : ∀ o ∈ idle, o.upkeep = true) :
    let e := ((d.performAll idle).perform operation).console
    e.machine.Consistent ∧ Alike [.clock, .redraw] (c.perform operation).console e ∧
      ∀ first second, e.trace second = (c.perform operation).console.trace first →
        d.trace (idle ++ operation :: second) = c.trace (operation :: first) := by
  have caught := h.performAll_upkeep upkeep
  have hd := consistent_performAll_continues hd fun o ho => continues_of_upkeep (upkeep o ho)
  have finds : operation = .cycle → ∀ i, c.executing = some i →
      FindsSame c.machine (d.performAll idle).machine i := by
    intro cycle i executing
    apply caught.machine.findsSame (by simp)
    rintro - x rfl
    exact unread cycle x executing
  obtain ⟨-, alike⟩ := perform_alike caught hc.toNominal hd.toNominal continues finds
  refine ⟨consistent_perform_continues hd continues, alike, ?_⟩
  intro first second later
  rw [trace_append, trace_upkeep d upkeep, List.nil_append]
  exact trace_cons_alike caught hc.toNominal hd.toNominal finds later

/-- The timers and the request for a redraw show in nothing but themselves, as long as the first
of two runs does not read its delay timer. The two are given the same keys and programs between
the same cycles, and draw the same bytes; each is ticked and acknowledged when its host likes. -/
theorem upkeep_unnoticed (h : Alike [.clock, .redraw] c d) (hc : c.machine.Consistent)
    (hd : d.machine.Consistent) {first second : List Operation}
    (continues : ∀ o ∈ first, o.continues = true)
    (same : second.filter (!·.upkeep) = first.filter (!·.upkeep))
    (unread : ∀ s ∈ c.trace first, ∀ x, s.instruction ≠ some (.readDelay x)) :
    d.trace second = c.trace first ∧
      Alike [.clock, .redraw] (c.performAll first) (d.performAll second) := by
  -- From the front of the first run; the second one is cut where it does the same.
  induction first generalizing c d second with
  | nil =>
    have upkeep : ∀ o ∈ second, o.upkeep = true := by simpa using same
    exact ⟨trace_upkeep d upkeep, h.performAll_upkeep upkeep⟩
  | cons operation rest ih =>
    obtain ⟨now, later⟩ := List.forall_mem_cons.mp continues
    have after := consistent_perform_continues hc now
    have unread' : ∀ s ∈ (c.perform operation).console.trace rest, ∀ x,
        s.instruction ≠ some (.readDelay x) := fun s seen => unread s (mem_trace_cons seen)
    by_cases upkeep : operation.upkeep = true
    · rw [List.filter_cons_of_neg (by simp [upkeep])] at same
      rw [trace_of_ne c (ne_cycle_of_upkeep upkeep)]
      exact ih (h.upkeep_left upkeep) after hd later same unread'
    · rw [List.filter_cons_of_pos (by simp [upkeep])] at same
      obtain ⟨idle, others, rfl, kept, -, same⟩ := List.filter_eq_cons_iff.mp same
      have idling : ∀ o ∈ idle, o.upkeep = true := by simpa using kept
      have current : operation = .cycle → ∀ x, c.executing ≠ some (.readDelay x) := by
        rintro rfl x
        rw [← instruction_sight]
        exact unread c.sight (by simp [trace_cycle]) x
      obtain ⟨consistent, alike, traces⟩ := upkeep_step h hc hd now current idling
      obtain ⟨seen, ends⟩ := ih alike after consistent later same unread'
      have cut : d.performAll (idle ++ operation :: others) =
          ((d.performAll idle).perform operation).console.performAll others := by
        simp [performAll]
      rw [cut]
      exact ⟨traces rest others seen, ends⟩

/-- A program that jumps on the spot runs the same with the timers ticking after every cycle and
with a delay timer that nobody ticks. -/
theorem upkeep_unnoticed_jump :
    let c := ((assemble ⟨true, true⟩ (Tape.repeating #[7]) .debug).reset.load [0x12, 0x00]).console
    let d := { c with
      wiring := ⟨false, false⟩
      machine := { c.machine with delay := 9, redraw := true } }
    (Alike [.clock, .redraw] c d ∧ c.machine.Consistent ∧ d.machine.Consistent ∧
      ∀ s ∈ c.trace [.cycle, .tick], s.instruction = some (.jump 0x200)) ∧
    d.trace [.clearRedraw, .cycle] = c.trace [.cycle, .tick] ∧
      Alike [.clock, .redraw] (c.performAll [.cycle, .tick])
        (d.performAll [.clearRedraw, .cycle]) := by
  intro c d
  have consistent : c.machine.Consistent := consistent_reset_load _ _
  have delayed : d.machine.Consistent := { consistent with delay := by decide }
  have alike : Alike [.clock, .redraw] c d :=
    ⟨⟨rfl, by simp, fun _ => rfl, by simp⟩, fun _ => rfl, by simp⟩
  have jumps : ∀ s ∈ c.trace [.cycle, .tick], s.instruction = some (.jump 0x200) := by
    intro s seen
    rw [trace_cycle, trace_of_ne _ (by simp), trace, List.mem_singleton] at seen
    rw [seen, instruction_sight]
    exact executing_reset_load _ (by decide) (by decide) (by decide)
  refine ⟨⟨alike, consistent, delayed, jumps⟩, ?_⟩
  apply upkeep_unnoticed alike consistent delayed (by decide) (by decide)
  intro s seen x reads
  rw [jumps s seen] at reads
  cases reads

end Console

end HexConsole
