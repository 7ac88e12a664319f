import HexConsole.Host
import HexConsole.Proofs.Footprint
import HexConsole.Proofs.Painting

/-!
# Turns

A turn first attends to the user, then runs one cycle and shows the frame if the cycle asks for it.
What it does up to the cycle touches timers, tone and keys of the machine and nothing that is
shown. In a window of the size that was asked for nothing goes wrong but a cycle. The turns that a
host really plays, out of a script that may go on after the user has left, are listed with the host
that each of them starts from. Main statement: what every turn preserves holds in all of them, and
what every turn counts is counted over the list.
-/
namespace HexConsole

namespace Console

variable {σ : Type} [RandomSource σ]

/-- A keypad that a host hands over is the one that the machine has. -/
theorem perform_setKeys (c : Console σ) (keys : Keypad) :
    c.perform (.setKeys keys.toList) =
      ⟨{ c with machine := { c.machine with keys } }, none⟩ := by
  have sixteen : keys.toList.length = 16 := by simp
  simp only [perform, update, Machine.setKeys, dif_pos sixteen]
  rfl

end Console

/-- The machine at the start of a turn, for a scene in which one starts. -/
def Scene.waiting? {δ : Type} : Scene δ → Option Machine
  | waited _ machine => some machine
  | _ => none

namespace Host

open Machine

variable {σ δ : Type}

/-- The machines that turns have started with, the first one first. -/
def waits (h : Host σ δ) : List Machine := h.scenes.toList.filterMap Scene.waiting?

theorem waits_see (h : Host σ δ) (s : Scene δ) :
    (h.see s).waits = h.waits ++ s.waiting?.toList := by
  cases s <;> simp [waits, see, Scene.waiting?]

/-! ## Before the cycle -/

/-- How a host goes on from another one without running a cycle or showing anything. -/
structure Handled (h k : Host σ δ) : Prop where
  machine : k.console.machine = { h.console.machine with
    delay := k.console.machine.delay
    sound := k.console.machine.sound
    tone := k.console.machine.tone
    keys := k.console.machine.keys }
  consistent : h.console.machine.Consistent → k.console.machine.Consistent
  window : k.window = h.window
  scenes : k.scenes = h.scenes

namespace Handled

theorem refl (h : Host σ δ) : Handled h h := ⟨rfl, id, rfl, rfl⟩

theorem trans {h k l : Host σ δ} (first : Handled h k) (second : Handled k l) : Handled h l where
  machine := by rw [second.machine, first.machine]
  consistent := second.consistent ∘ first.consistent
  window := second.window.trans first.window
  scenes := second.scenes.trans first.scenes

end Handled

theorem handled_handle (h : Host σ δ) (e : Event) : Handled h (h.handle e) := by
  cases e with
  | timer =>
    have ticked : (h.handle .timer).console.machine = h.console.machine.tick :=
      Console.machine_tick h.console
    refine ⟨by rw [ticked]; rfl, fun consistent => ?_, rfl, rfl⟩
    rw [ticked]
    exact consistent.tick
  | quit | keyDown | keyUp => exact .refl h

theorem handled_events (h : Host σ δ) (events : List Event) :
    Handled h (events.foldl handle h) := by
  induction events generalizing h with
  | nil => exact .refl h
  | cons e rest ih => exact (handled_handle h e).trans (ih _)

/-- A host with the keys of its machine held as told. -/
def holding (h : Host σ δ) (keys : Keypad) : Host σ δ :=
  { h with console := { h.console with machine := { h.console.machine with keys } } }

theorem handled_holding (h : Host σ δ) (keys : Keypad) : Handled h (h.holding keys) where
  machine := rfl
  consistent consistent := { consistent with }
  window := rfl
  scenes := rfl

/-- The host of a turn at the moment when its cycle starts. -/
def ready (delay : Amount) (h : Host σ δ) (t : Turn) : Host σ δ :=
  (t.events.foldl handle (h.see (.waited delay h.console.machine))).holding t.keypad

theorem handled_ready (delay : Amount) (h : Host σ δ) (t : Turn) :
    Handled (h.see (.waited delay h.console.machine)) (h.ready delay t) :=
  (handled_events _ t.events).trans (handled_holding _ t.keypad)

theorem window_ready (delay : Amount) (h : Host σ δ) (t : Turn) :
    (h.ready delay t).window = h.window := by
  rw [(handled_ready delay h t).window]
  rfl

theorem waits_ready (delay : Amount) (h : Host σ δ) (t : Turn) :
    (h.ready delay t).waits = h.waits ++ [h.console.machine] := by
  rw [waits, (handled_ready delay h t).scenes]
  exact waits_see h _

/-! ## Opening the window -/

/-- A host that has opened its window, and has started its timer if the cycles do not tick. -/
def launched (window : Window δ) (console : Console σ) : Host σ δ :=
  let h : Host σ δ := ⟨console, window, #[.shown window.display]⟩
  if console.wiring.ticksAfterCycle then h else h.see (.timerStarted timerInterval)

theorem console_launched (window : Window δ) (console : Console σ) :
    (launched window console).console = console := by
  unfold launched
  cases console.wiring.ticksAfterCycle <;> rfl

theorem window_launched (window : Window δ) (console : Console σ) :
    (launched window console).window = window := by
  unfold launched
  cases console.wiring.ticksAfterCycle <;> rfl

theorem waits_launched (window : Window δ) (console : Console σ) :
    (launched window console).waits = [] := by
  unfold launched
  cases console.wiring.ticksAfterCycle with
  | true => rfl
  | false => exact waits_see _ _

section Displays

variable [Display δ]

theorem opened_eq {d : δ} {scale : Int} {window : Window δ}
    (opens : Window.opened d scale 64 32 = .ok window) (console : Console σ) :
    opened d scale console = .ok (launched window console) := by
  unfold opened
  rw [opens]
  rfl

/-! ## After the cycle -/

theorem repaint_of_still {h : Host σ δ} (still : h.console.machine.redraw = false) :
    h.repaint = (h, none) := by
  simp [repaint, still]

variable [LawfulDisplay δ] {scale : Int}

/-- A host whose machine asks for it shows the frame. Neither the frame nor the window gives cause
for a mishap. -/
theorem repaint_of_asking {h : Host σ δ} (asks : h.console.machine.redraw = true)
    (fitted : h.window.Fitted scale 64 32) :
    ∃ window, h.repaint =
        ({ h with window, console := h.console.clearRedraw }.see (.shown window.display), none) ∧
      window.Fitted scale 64 32 ∧
      Display.Shows window.display scale 64 32 h.console.machine.frame.pixel := by
  let view : View 64 32 := ⟨h.console.machine.frame, by decide, by decide⟩
  have viewed : h.console.machine.frame.view = .ok view := rfl
  obtain ⟨window, drawn, same, wide, tall, points⟩ := Window.drawFrame_of_covers (v := view) fitted
    ⟨by decide, Int.le_refl 64⟩ ⟨by decide, Int.le_refl 32⟩
  refine ⟨window, ?_, fitted.congr same, wide, tall, ?_⟩
  · simp only [repaint, asks, viewed, drawn, if_true]
  · intro px py left top
    have column : 0 ≤ (px : Int) / scale ∧ (px : Int) / scale < 64 :=
      Patch.square_of_point fitted.positive (by omega)
    have row : 0 ≤ (py : Int) / scale ∧ (py : Int) / scale < 32 :=
      Patch.square_of_point fitted.positive (by omega)
    have on : h.console.machine.frame.inBounds (px / scale) (py / scale) = true :=
      Frame.inBounds_iff.mpr ⟨column, row⟩
    rw [← points px py left top, Frame.pixel_of_inBounds _ on, view.pixel_of_inBounds on]

/-- A repaint only withdraws the request for it. -/
theorem repaint_fitted {h : Host σ δ}
    (fitted : h.window.Fitted scale 64 32) :
    h.repaint.2 = none ∧ h.repaint.1.console = h.console.clearRedraw ∧
      h.repaint.1.window.Fitted scale 64 32 ∧ h.repaint.1.waits = h.waits := by
  cases asks : h.console.machine.redraw with
  | false =>
    have same : h.console.clearRedraw = h.console := by
      unfold Console.clearRedraw
      rw [← asks]
    rw [repaint_of_still asks, same]
    exact ⟨rfl, rfl, fitted, rfl⟩
  | true =>
    obtain ⟨window, ends, still, -⟩ := repaint_of_asking asks fitted
    rw [ends, waits_see]
    exact ⟨rfl, rfl, still, List.append_nil _⟩

end Displays

/-! ## Whole turns -/

variable [RandomSource σ]

/-- The host of a turn at the moment when its cycle has ended. -/
def cycled (delay : Amount) (h : Host σ δ) (t : Turn) : Host σ δ :=
  { h.ready delay t with console := (h.ready delay t).console.cycle.console }

theorem window_cycled (delay : Amount) (h : Host σ δ) (t : Turn) :
    (h.cycled delay t).window = h.window := by
  unfold cycled
  rw [← window_ready delay h t]

theorem hold_eq [Display δ] (h : Host σ δ) (keys : Keypad) :
    h.hold keys = (h.holding keys, none) := by
  simp only [hold, perform, Console.perform_setKeys]
  rfl

variable [Display δ] {delay : Amount} (waits : Display.Waits δ delay)
include waits

/-- Nothing goes wrong in a turn before its cycle. -/
theorem turn_eq (h : Host σ δ) (t : Turn) :
    h.turn delay t = Played.andThen ((h.ready delay t).perform .cycle) repaint := by
  have waited : h.wait delay = (h.see (.waited delay h.console.machine), none) := by
    simp only [wait, waits h.window.display, Option.map_none]
  simp only [turn, waited, hold_eq, Played.andThen]
  rfl

theorem turn_of_failure {h : Host σ δ} {t : Turn} {e : Failure}
    (failed : (h.ready delay t).console.cycle.failure? = some e) :
    h.turn delay t = (h.cycled delay t, some (.machine e)) := by
  rw [turn_eq waits]
  simp only [perform, Console.perform, failed]
  rfl

theorem turn_of_success {h : Host σ δ} {t : Turn}
    (done : (h.ready delay t).console.cycle.failure? = none) :
    h.turn delay t = (h.cycled delay t).repaint := by
  rw [turn_eq waits]
  simp only [perform, Console.perform, done]
  rfl

/-- A turn ends with its cycle, and then acknowledges the frame if the cycle has not failed. -/
theorem turn_cycle [LawfulDisplay δ] {scale : Int} {h : Host σ δ}
    (fitted : h.window.Fitted scale 64 32) (t : Turn) :
    let o := (h.ready delay t).console.cycle
    (h.turn delay t).2 = o.failure?.map .machine ∧
      (h.turn delay t).1.console =
        (if o.failure?.isSome then o.console else o.console.clearRedraw) ∧
      (h.turn delay t).1.window.Fitted scale 64 32 ∧
      (h.turn delay t).1.waits = h.waits ++ [h.console.machine] := by
  intro o
  have still : (h.cycled delay t).window.Fitted scale 64 32 := by
    rw [window_cycled]
    exact fitted
  have seen : (h.cycled delay t).waits = h.waits ++ [h.console.machine] := waits_ready delay h t
  cases failure : o.failure? with
  | some e =>
    rw [turn_of_failure waits failure]
    exact ⟨rfl, rfl, still, seen⟩
  | none =>
    obtain ⟨calm, acknowledged, kept, same⟩ := repaint_fitted still
    rw [turn_of_success waits failure, calm, acknowledged, same]
    exact ⟨rfl, rfl, kept, seen⟩

omit waits

/-- The turns that are played of a script, each with the host that it starts from. The user
leaves right after the last turn of a script that does not say when. -/
def played (delay : Amount) (h : Host σ δ) : List Turn → List (Host σ δ × Turn)
  | [] => [(h, .quitting)]
  | t :: rest => (h, t) ::
    match h.turn delay t with
    | (_, some _) => []
    | (k, none) => if t.leaves then [] else k.played delay rest

theorem play_of_failure {delay : Amount} {h : Host σ δ} {t : Turn} {e : Mishap}
    (failed : (h.turn delay t).2 = some e) (rest : List Turn) :
    h.play delay (t :: rest) = h.turn delay t := by
  rw [play]
  cases turn : h.turn delay t with
  | mk k mishap? =>
    rw [turn] at failed
    cases failed
    rfl

theorem play_of_leaves {delay : Amount} {h : Host σ δ} {t : Turn} (leaves : t.leaves = true)
    (rest : List Turn) : h.play delay (t :: rest) = h.turn delay t := by
  rw [play, leaves]
  cases h.turn delay t with
  | mk k mishap? => cases mishap? <;> rfl

theorem play_of_stays {delay : Amount} {h : Host σ δ} {t : Turn}
    (done : (h.turn delay t).2 = none) (stays : t.leaves = false) (rest : List Turn) :
    h.play delay (t :: rest) = (h.turn delay t).1.play delay rest := by
  rw [play, stays]
  cases turn : h.turn delay t with
  | mk k mishap? =>
    rw [turn] at done
    cases done
    rfl

/-- The window is closed after a play without a mishap. -/
theorem present_eq {d : δ} {scale : Int} {console : Console σ} {h : Host σ δ}
    (done : opened d scale console = .ok h) (delay : Amount) (script : List Turn) :
    present d scale delay console script =
      .ok (if (h.play delay script).2.isSome then (h.play delay script).1
        else (h.play delay script).1.see .closed, (h.play delay script).2) := by
  simp only [present, done, bind, Except.bind]
  cases h.play delay script with
  | mk k mishap? => cases mishap? <;> rfl

end Host

end HexConsole
