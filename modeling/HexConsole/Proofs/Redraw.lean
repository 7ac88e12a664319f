import HexConsole.Proofs.Loading
import HexConsole.Proofs.Writing

/-!
# Requests for a redraw

Painting asks for a redraw, and nothing takes the request back but an acknowledgement or a reset.
Main statement: a machine that does not ask for one asks for it after a run exactly if a cycle of
the run has painted, so a frame that nobody is asked to show is the one that was shown last.
-/
namespace HexConsole

namespace Console

open Machine

variable {σ : Type} [RandomSource σ] {c : Console σ} {operation : Operation}
  {operations : List Operation}

/-- Whether a cycle of a run carries out an instruction that paints. -/
def PaintsIn (c : Console σ) (operations : List Operation) : Prop :=
  ∃ before after, operations = before ++ .cycle :: after ∧ (c.performAll before).paints = true

theorem not_paintsIn_nil (c : Console σ) : ¬c.PaintsIn [] := by
  rintro ⟨before, after, split, -⟩
  simp at split

theorem paintsIn_cons (c : Console σ) (operation : Operation) (rest : List Operation) :
    c.PaintsIn (operation :: rest) ↔
      (operation = .cycle ∧ c.paints = true) ∨ (c.perform operation).console.PaintsIn rest :=
  exists_cycle_cons (fun d _ => d.paints = true) c operation rest

/-- Between cycles only an acknowledgement moves the request. -/
theorem redraw_perform (c : Console σ) (continues : operation.continues = true)
    (between : operation ≠ .cycle) (unanswered : operation ≠ .clearRedraw) :
    (c.perform operation).console.machine.redraw = c.machine.redraw := by
  cases operation with
  | reset | process => cases continues
  | cycle => exact absurd rfl between
  | clearRedraw => exact absurd rfl unanswered
  | load rom =>
    simp only [perform, load, Machine.load]
    cases refusal? rom.length <;> rfl
  | setKeys states =>
    simp only [perform, update, setKeys]
    split_ifs <;> rfl
  | press key | release key =>
    simp only [perform, update, setKey]
    cases position? 16 key <;> rfl
  | tick =>
    simp only [perform, machine_tick]
    rfl
  | fetch => rw [perform_fetch]

/-- What one operation does to the screen, unless it acknowledges the frame. -/
theorem screen_perform (h : c.machine.Nominal) (continues : operation.continues = true)
    (unanswered : operation ≠ .clearRedraw) :
    let n := (c.perform operation).console.machine
    (operation = .cycle ∧ c.paints = true → n.redraw = true) ∧
    (¬(operation = .cycle ∧ c.paints = true) →
      n.frame = c.machine.frame ∧ n.redraw = c.machine.redraw) := by
  by_cases cycle : operation = .cycle
  · subst cycle
    obtain ⟨painted, kept⟩ := cycle_screen h
    refine ⟨fun painting => painted painting.2, ?_⟩
    intro plain
    exact kept (by simpa using plain)
  · refine ⟨fun painting => absurd painting.1 cycle, fun _ => ?_⟩
    have frozen := (attends_perform c continues cycle).frozen
    exact ⟨by rw [frozen], redraw_perform c continues cycle unanswered⟩

/-- What a run does to the screen, unless it acknowledges a frame. -/
theorem screen_performAll (h : c.machine.Consistent)
    (continues : ∀ o ∈ operations, o.continues = true) (unanswered : .clearRedraw ∉ operations) :
    let n := (c.performAll operations).machine
    (c.PaintsIn operations → n.redraw = true) ∧
    (¬c.PaintsIn operations → n.frame = c.machine.frame ∧ n.redraw = c.machine.redraw) := by
  induction operations generalizing c with
  | nil => exact ⟨fun painting => absurd painting (not_paintsIn_nil c), fun _ => ⟨rfl, rfl⟩⟩
  | cons operation rest ih =>
    obtain ⟨now, later⟩ := List.forall_mem_cons.mp continues
    rw [List.mem_cons, not_or] at unanswered
    obtain ⟨painted, kept⟩ := screen_perform h.toNominal now (Ne.symm unanswered.1)
    obtain ⟨paintedLater, keptLater⟩ :=
      ih (consistent_perform_continues h now) later unanswered.2
    have final : c.performAll (operation :: rest) =
        (c.perform operation).console.performAll rest := rfl
    rw [paintsIn_cons, final]
    by_cases again : (c.perform operation).console.PaintsIn rest
    · exact ⟨fun _ => paintedLater again, fun plain => absurd (.inr again) plain⟩
    · obtain ⟨frame, redraw⟩ := keptLater again
      constructor
      · rintro (first | second)
        · exact redraw.trans (painted first)
        · exact absurd second again
      · intro plain
        obtain ⟨frameFirst, redrawFirst⟩ := kept fun first => plain (.inl first)
        exact ⟨frame.trans frameFirst, redraw.trans redrawFirst⟩

/-- Dispatching past the cycle takes no request back either. -/
theorem redraw_process (h : c.machine.Nominal) (operand : Int) (asked : c.machine.redraw = true) :
    (c.process operand).console.machine.redraw = true := by
  rw [process_eq h]
  cases ends : c.attempt operand with
  | error f => exact asked
  | ok n =>
    rw [attempt, obeyed] at ends
    cases decoded : Instruction.decode operand with
    | none =>
      rw [decoded] at ends
      cases ends
    | some i =>
      rw [decoded] at ends
      have writes := effect_writes (h.noting operand) ends
      exact writes.redraw.trans (by rw [asked, Bool.or_true])

theorem paints_of_clearScreen (h : c.machine.Nominal) (clearing : c.executing = some .clearScreen) :
    c.paints = true := by
  rw [paints, (executed_of_ok h clearing rfl).1]
  rfl

/-- A request for a redraw is there at the end of a run exactly if it was there before or a cycle of
the run has carried out an instruction that paints, and where none is there the frame is as it was.
An acknowledgement and a reset take the request back, and no other operation does. -/
theorem redraw_account (h : Reachable c) :
    (∀ operations, (∀ o ∈ operations, o.continues = true) → .clearRedraw ∉ operations →
      let d := c.performAll operations
      (d.machine.redraw = true ↔ c.machine.redraw = true ∨ c.PaintsIn operations) ∧
      (d.machine.redraw = false → d.machine.frame = c.machine.frame)) ∧
    (∀ operation, operation ≠ .reset → operation ≠ .clearRedraw → c.machine.redraw = true →
      (c.perform operation).console.machine.redraw = true) ∧
    (c.perform .clearRedraw).console.machine.redraw = false ∧
    (c.perform .reset).console.machine.redraw = false := by
  refine ⟨?runs, ?steps, rfl, ?cleared⟩
  case runs =>
    intro operations continues unanswered d
    obtain ⟨painted, kept⟩ := screen_performAll h.consistent continues unanswered
    by_cases painting : c.PaintsIn operations
    · have asked : d.machine.redraw = true := painted painting
      simp [asked, painting]
    · obtain ⟨frame, redraw⟩ := kept painting
      have same : d.machine.redraw = c.machine.redraw := redraw
      refine ⟨?_, fun _ => frame⟩
      rw [same]
      simp [painting]
  case steps =>
    intro operation reset unanswered asked
    by_cases continues : operation.continues = true
    · obtain ⟨painted, kept⟩ := screen_perform h.consistent.toNominal continues unanswered
      by_cases painting : operation = .cycle ∧ c.paints = true
      · exact painted painting
      · exact (kept painting).2.trans asked
    · cases operation with
      | reset => exact absurd rfl reset
      | process operand => exact redraw_process h.consistent.toNominal operand asked
      | _ => exact absurd rfl continues
  case cleared =>
    have reset : (c.perform .reset).console.machine = .initial := machine_reset c
    rw [reset]
    rfl

/-- A program that clears the screen asks for a redraw, and a host that then presses a key which is
not there does not take the request back. -/
theorem redraw_account_clear :
    let c := ((assemble ⟨true, true⟩ (Tape.repeating #[]) .debug).reset.load [0x00, 0xE0]).console
    let operations := [Operation.cycle, .press 20]
    (Reachable c ∧ (∀ o ∈ operations, o.continues = true) ∧ .clearRedraw ∉ operations) ∧
      c.machine.redraw = false ∧ (c.performAll operations).machine.redraw = true := by
  intro c operations
  have reached : Reachable c := reachable_reset_load _ _ _ _
  have continues : ∀ o ∈ operations, o.continues = true := by decide
  have unanswered : .clearRedraw ∉ operations := by decide
  have clearing : c.executing = some .clearScreen :=
    executing_reset_load _ (by decide) (by decide) (by decide)
  have paints : c.paints = true := paints_of_clearScreen reached.consistent.toNominal clearing
  have painting : c.PaintsIn operations := (paintsIn_cons c _ _).mpr (.inl ⟨rfl, paints⟩)
  have silent : c.machine.redraw = false := (screen_reset_load _ _).2
  obtain ⟨asks, -⟩ := (redraw_account reached).1 operations continues unanswered
  exact ⟨⟨reached, continues, unanswered⟩, silent, asks.mpr (.inr painting)⟩

end Console

end HexConsole
