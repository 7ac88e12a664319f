import Mathlib.Tactic.SplitIfs
import HexConsole.Program

/-!
# Being told less

A threshold decides what is told, and nothing else. To raise the threshold of a console is to leave
out of its journal what the new one does not admit. Main statement: every operation does the same to
a console that is told less, so a run of it is the same run with a shorter log.
-/
namespace HexConsole

namespace Level

/-- The higher one of two thresholds. -/
def raised (threshold other : Level) : Level := if threshold.admits other then other else threshold

theorem raised_admits (threshold other level : Level) :
    (threshold.raised other).admits level = (threshold.admits level && other.admits level) := by
  cases threshold <;> cases other <;> cases level <;> rfl

end Level

namespace Console

variable {σ : Type} (t : Level)

/-- The console that has been told less, as another threshold asks. -/
def hushed (c : Console σ) : Console σ :=
  { c with
    threshold := c.threshold.raised t
    journal := c.journal.filter fun n => t.admits n.record.level }

theorem hushed_assemble (wiring : Wiring) (source : σ) :
    (assemble wiring source .debug).hushed t = assemble wiring source t := by
  simp [hushed, assemble, Level.raised]

/-! ## Operations -/

theorem hushed_note (c : Console σ) (n : Note) : (c.note n).hushed t = (c.hushed t).note n := by
  have tells : (c.hushed t).tells n.record.level =
      (c.tells n.record.level && t.admits n.record.level) :=
    c.threshold.raised_admits t n.record.level
  unfold note
  rw [tells]
  cases told : c.tells n.record.level <;> cases admitted : t.admits n.record.level <;>
    simp [hushed, admitted]

theorem hushed_reset (c : Console σ) : c.reset.hushed t = (c.hushed t).reset := by
  unfold reset
  rw [hushed_note]
  rfl

theorem hushed_load (c : Console σ) (rom : List Byte) :
    (c.hushed t).load rom = ⟨(c.load rom).console.hushed t, (c.load rom).failure?⟩ := by
  have same : (c.hushed t).machine = c.machine := rfl
  unfold load
  rw [same]
  cases c.machine.load rom with
  | error e => rfl
  | ok machine =>
    simp only
    rw [hushed_note]
    rfl

/-- A tick that sounds is noted, and heard by the listener. -/
theorem tick_of_tone {c : Console σ} (sounds : c.machine.tick.tone = true) : c.tick =
    let d := { c with machine := c.machine.tick }.note .beep
    if c.wiring.toneListener then { d with tones := d.tones + 1 }.note .toneHeard else d :=
  if_pos sounds

theorem tick_of_silence {c : Console σ} (silent : c.machine.tick.tone = false) :
    c.tick = { c with machine := c.machine.tick } :=
  if_neg (Bool.not_eq_true _ ▸ silent)

theorem hushed_tick (c : Console σ) : c.tick.hushed t = (c.hushed t).tick := by
  cases sounds : c.machine.tick.tone with
  | false =>
    rw [tick_of_silence sounds, tick_of_silence (c := c.hushed t) sounds]
    rfl
  | true =>
    rw [tick_of_tone sounds, tick_of_tone (c := c.hushed t) sounds]
    generalize ticked : { c with machine := c.machine.tick }.note .beep = d
    have noted : { c.hushed t with machine := (c.hushed t).machine.tick }.note .beep =
        d.hushed t := by
      rw [← ticked, hushed_note]
      rfl
    have listener : (c.hushed t).wiring.toneListener = c.wiring.toneListener := rfl
    simp only [noted, listener]
    split_ifs
    · rw [hushed_note]
      rfl
    · rfl

theorem hushed_settle (c : Console σ) : c.settle.hushed t = (c.hushed t).settle := by
  have same : (c.hushed t).wiring.ticksAfterCycle = c.wiring.ticksAfterCycle := rfl
  unfold settle
  rw [same]
  split_ifs
  · exact hushed_tick t c
  · rfl

theorem hushed_pass (c : Console σ) (word : Int) :
    (c.pass word).hushed t = (c.hushed t).pass word := by
  rw [pass_eq, pass_eq, hushed_note]
  rfl

theorem hushed_halt (c : Console σ) (e : Failure) :
    (c.hushed t).halt e = ⟨(c.halt e).console.hushed t, (c.halt e).failure?⟩ := by
  cases e with
  | fault f =>
    simp only [halt]
    rw [hushed_note]
    rfl
  | _ => rfl

variable [RandomSource σ]

theorem hushed_process (c : Console σ) (operand : Int) :
    (c.hushed t).process operand =
      ⟨(c.process operand).console.hushed t, (c.process operand).failure?⟩ := by
  simp only [process, supply]
  split_ifs <;> rfl

theorem hushed_advance (c : Console σ) :
    (c.hushed t).advance = ⟨c.advance.console.hushed t, c.advance.failure?⟩ := by
  have looked : (c.hushed t).look = c.look.hushed t := rfl
  have fetched : (c.look.hushed t).machine.fetch = c.look.machine.fetch := rfl
  simp only [advance, looked, fetched]
  cases c.look.machine.fetch with
  | error e => rfl
  | ok word =>
    simp only [← hushed_pass]
    exact hushed_process t (c.look.pass word) word

/-- A cycle that is told less of is the same cycle. -/
theorem hushed_cycle (c : Console σ) :
    (c.hushed t).cycle = ⟨c.cycle.console.hushed t, c.cycle.failure?⟩ := by
  have fault : (c.hushed t).machine.fault = c.machine.fault := rfl
  unfold cycle
  rw [fault, hushed_advance]
  cases c.machine.fault with
  | some f => rfl
  | none =>
    simp only
    cases c.advance.failure? with
    | some e => exact hushed_halt t c.advance.console e
    | none => rw [hushed_settle]

/-- No operation depends on how much is told of it. -/
theorem hushed_perform (c : Console σ) (operation : Operation) :
    (c.hushed t).perform operation =
      ⟨(c.perform operation).console.hushed t, (c.perform operation).failure?⟩ := by
  have updated (result : Except Failure Machine) : (c.hushed t).update result =
      ⟨(c.update result).console.hushed t, (c.update result).failure?⟩ := by
    cases result <;> rfl
  cases operation with
  | reset => simp only [perform, hushed_reset]
  | load rom => exact hushed_load t c rom
  | tick => simp only [perform, hushed_tick]
  | process operand => exact hushed_process t c operand
  | cycle => exact hushed_cycle t c
  | clearRedraw => rfl
  | _ => exact updated _

/-! ## Thresholds -/

omit [RandomSource σ] in
theorem threshold_tick (c : Console σ) : c.tick.threshold = c.threshold := by
  cases sounds : c.machine.tick.tone with
  | false => rw [tick_of_silence sounds]
  | true =>
    rw [tick_of_tone sounds]
    simp only
    split_ifs <;> rfl

theorem threshold_supply (c : Console σ) (operand : Int) :
    (c.supply operand).2.threshold = c.threshold := by
  unfold supply
  split_ifs <;> rfl

/-- A cycle does not change how much is told. -/
theorem threshold_cycle (c : Console σ) : c.cycle.console.threshold = c.threshold := by
  have advanced : c.advance.console.threshold = c.threshold := by
    simp only [advance]
    cases c.look.machine.fetch with
    | error e => rfl
    | ok word =>
      refine (threshold_supply (c.look.pass word) word).trans ?_
      rw [pass_eq]
      rfl
  unfold cycle
  cases c.machine.fault with
  | some f => rfl
  | none =>
    simp only
    cases c.advance.failure? with
    | some e => cases e <;> exact advanced
    | none =>
      simp only [settle]
      split_ifs
      · exact (threshold_tick c.advance.console).trans advanced
      · exact advanced

/-! ## Runs -/

/-- Whatever is done with a console that is told less, the same comes of it. -/
theorem hushed_performAll (c : Console σ) (operations : List Operation) :
    (c.hushed t).performAll operations = (c.performAll operations).hushed t := by
  induction operations generalizing c with
  | nil => rfl
  | cons operation rest ih =>
    have first := congrArg Outcome.console (hushed_perform t c operation)
    simp only [performAll, List.foldl_cons, first]
    exact ih (c.perform operation).console

theorem hushed_runFrom (finished : Nat) (c : Console σ) (n : Nat) :
    (c.hushed t).runFrom finished n =
      ((c.runFrom finished n).1, ⟨(c.runFrom finished n).2.console.hushed t,
        (c.runFrom finished n).2.failure?⟩) := by
  induction n generalizing finished c with
  | zero => rfl
  | succ n ih =>
    unfold runFrom
    rw [hushed_cycle]
    simp only
    cases failed : c.cycle.failure? with
    | some e => simp only [failed]
    | none => exact ih (finished + 1) c.cycle.console

theorem threshold_run (c : Console σ) (n : Nat) :
    (c.run n).2.console.threshold = c.threshold := by
  unfold run
  generalize 0 = finished
  induction n generalizing finished c with
  | zero => rfl
  | succ n ih =>
    unfold runFrom
    simp only
    cases c.cycle.failure? with
    | some e => exact threshold_cycle c
    | none => exact (ih c.cycle.console (finished + 1)).trans (threshold_cycle c)

end Console

/-- A run of which less has been told. -/
def Run.hushed {δ : Type} (t : Level) (r : Run δ) : Run δ :=
  { r with log := r.log.filter fun record => t.admits record.level }

namespace Program

variable {σ δ : Type} (t : Level)

theorem hushed_ofConsole (c : Console σ) (trouble? : Option Trouble) (output : String)
    (scenes : List (Scene δ)) :
    Run.ofConsole (c.hushed t) trouble? output scenes =
      (Run.ofConsole c trouble? output scenes).hushed t := by
  have tells (level : Level) : (c.hushed t).tells level = (c.tells level && t.admits level) :=
    c.threshold.raised_admits t level
  have told : (c.hushed t).journal.toList.map Note.record =
      (c.journal.toList.map Note.record).filter fun record => t.admits record.level := by
    rw [List.filter_map]
    exact congrArg (List.map Note.record) Array.toList_filter
  have swapped (r : Record) : (c.tells r.level && t.admits r.level) =
      (t.admits r.level && c.tells r.level) := Bool.and_comm _ _
  simp only [Run.ofConsole, Run.hushed, told, tells, swapped, List.filter_append,
    Option.toList_filter, List.filter_filter]
  rfl

variable [RandomSource σ]

theorem hushed_runHeadless (c : Console σ) (n : Int) :
    (runHeadless n (c.hushed t) : Run δ) = (runHeadless n c).hushed t := by
  have outcome : ((c.hushed t).run n.toNat).2 =
      ⟨(c.run n.toNat).2.console.hushed t, (c.run n.toNat).2.failure?⟩ :=
    congrArg Prod.snd (Console.hushed_runFrom t 0 c n.toNat)
  have machine (d : Console σ) : (d.hushed t).machine = d.machine := rfl
  simp only [runHeadless, outcome, machine]
  cases (c.run n.toNat).2.failure? with
  | some e => exact hushed_ofConsole t _ _ _ _
  | none =>
    cases (c.run n.toNat).2.console.machine.report with
    | error e => exact hushed_ofConsole t _ _ _ _
    | ok report => exact hushed_ofConsole t _ _ _ _

end Program

end HexConsole
