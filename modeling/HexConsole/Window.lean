import HexConsole.Display
import HexConsole.Frame

/-!
# The window

A window shows a frame with every pixel blown up to a square. Painting changes the
surface of a display, and showing makes the surface visible. Painting a whole frame
starts from a dark surface, so nothing of an earlier one is left.
-/
namespace HexConsole

inductive WindowError where
  | frame (e : FrameError)
  | colour (number : Int)
  | display (c : Complaint)
  deriving DecidableEq, Repr

def WindowError.message : WindowError → String
  | frame e => e.message
  | colour number => toString number
  | display c => c.message

structure Window (δ : Type) where
  /-- The side of a square. -/
  scale : Int
  columns : Int
  rows : Int
  display : δ

namespace Window

def caption : String := "CHIP8 Emulator"

variable {δ : Type} [Display δ]

def clear (w : Window δ) : Window δ := { w with display := Display.fill w.display }

/-- Shows what has been painted. -/
def update (w : Window δ) : Window δ := { w with display := Display.flip w.display }

/-- Opens a window and shows it dark. -/
def opened (d : δ) (scale columns rows : Int) : Except WindowError (Window δ) :=
  match Display.openWindow d (columns * scale) (rows * scale) with
  | .error e => .error (.display e)
  | .ok display => .ok { scale, columns, rows, display : Window δ }.clear.update

/-- The square of a pixel in one of two colours. -/
def square (w : Window δ) (x y : Int) (bright : Bool) : Patch :=
  ⟨x * w.scale, y * w.scale, w.scale, w.scale, bright⟩

/-- Paints one square in one of the colours 0 and 1. -/
def drawPixel (w : Window δ) (x y colour : Int) : Except WindowError (Window δ) :=
  if colour ≠ 0 ∧ colour ≠ 1 then .error (.colour colour)
  else match Display.rect w.display (w.square x y (colour == 1)) with
    | .error e => .error (.display e)
    | .ok display => .ok { w with display }

/-- Paints the lit ones of some pixels of a view, from `(x, y)` on to the right, up to one
that cannot be read or painted. -/
def paintRow {width height : Int} (v : View width height) (w : Window δ) (x y : Int) :
    Nat → Window δ × Option WindowError
  | 0 => (w, none)
  | count + 1 =>
    match v.pixel x y with
    | .error e => (w, some (.frame e))
    | .ok false => paintRow v w (x + 1) y count
    | .ok true =>
      match w.drawPixel x y 1 with
      | .error e => (w, some e)
      | .ok w => paintRow v w (x + 1) y count

/-- Paints the lit pixels of some rows of a view, from row `y` on downwards, up to a pixel
that cannot be read or painted. -/
def paintRows {width height : Int} (v : View width height) (w : Window δ) (y : Int) :
    Nat → Window δ × Option WindowError
  | 0 => (w, none)
  | count + 1 =>
    match paintRow v w 0 y w.columns.toNat with
    | (w, some e) => (w, some e)
    | (w, none) => paintRows v w (y + 1) count

/-- Repaints the window from a view and shows it. If a pixel cannot be read or painted,
the ones before it stay painted and nothing is shown. -/
def drawFrame {width height : Int} (w : Window δ) (v : View width height) :
    Window δ × Option WindowError :=
  match paintRows v w.clear 0 w.rows.toNat with
  | (w, some e) => (w, some e)
  | (w, none) => (w.update, none)

/-- What can be done with an open window. -/
inductive Action where
  | frame {width height : Int} (v : View width height)
  | pixel (x y colour : Int)
  | clear
  | update

/-- What comes of an action: the window afterwards, the displays that were shown and the
failure. -/
structure Reply (δ : Type) where
  window : Window δ
  shown : List δ
  failure? : Option WindowError

def perform (w : Window δ) : Action → Reply δ
  | .frame v =>
    match w.drawFrame v with
    | (after, none) => ⟨after, [after.display], none⟩
    | (after, some e) => ⟨after, [], some e⟩
  | .pixel x y colour =>
    match w.drawPixel x y colour with
    | .ok after => ⟨after, [], none⟩
    | .error e => ⟨w, [], some e⟩
  | .clear => ⟨w.clear, [], none⟩
  | .update => ⟨w.update, [w.update.display], none⟩

end Window

end HexConsole
