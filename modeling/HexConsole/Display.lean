import HexConsole.Amount

/-!
# Displays

A display opens a window, takes paint on a surface that nobody sees, and shows the
surface when it is told to. It also keeps the time. How it does so is its own
affair: a display is any type with these operations, and what a host relies on is
written down as laws.
-/
namespace HexConsole

/-- What a display says when it does not do as it was asked. -/
structure Complaint where
  kind : String
  message : String
  deriving DecidableEq, Repr

/-- A rectangle of one colour. One with a negative side covers nothing. -/
structure Patch where
  left : Int
  top : Int
  width : Int
  height : Int
  bright : Bool
  deriving DecidableEq, Repr

namespace Patch

def coversColumn (p : Patch) (x : Int) : Bool :=
  decide (p.left ≤ x) && decide (x < p.left + p.width)

def coversRow (p : Patch) (y : Int) : Bool :=
  decide (p.top ≤ y) && decide (y < p.top + p.height)

def covers (p : Patch) (x y : Int) : Bool := p.coversColumn x && p.coversRow y

/-- Whether a patch has some points and none of them lies outside of a size. -/
structure Within (p : Patch) (width height : Nat) : Prop where
  left : 0 ≤ p.left
  top : 0 ≤ p.top
  wide : 0 < p.width
  tall : 0 < p.height
  right : p.left + p.width ≤ width
  bottom : p.top + p.height ≤ height

end Patch

class Display (δ : Type) where
  /-- Opens a window for which a width and a height are asked. -/
  openWindow : δ → Int → Int → Except Complaint δ
  /-- What is said of a size that is not given in numbers. -/
  sizeComplaint : δ → Complaint
  /-- Darkens the whole surface. -/
  fill : δ → δ
  /-- Paints a rectangle on the surface, as far as the surface reaches. -/
  rect : δ → Patch → Except Complaint δ
  /-- Shows the surface as it is. -/
  flip : δ → δ
  /-- Waits for a number of milliseconds. -/
  wait : δ → Amount → Option Complaint
  /-- The width of the surface. -/
  width : δ → Nat
  /-- The height of the surface. -/
  height : δ → Nat
  /-- Whether a point of the surface is bright. -/
  drawn : δ → Int → Int → Bool
  /-- Whether a point of what is shown is bright. -/
  shown : δ → Int → Int → Bool

/-- The laws of a display with an open window. -/
class LawfulDisplay (δ : Type) [Display δ] : Prop where
  width_fill : ∀ d : δ, Display.width (Display.fill d) = Display.width d
  height_fill : ∀ d : δ, Display.height (Display.fill d) = Display.height d
  drawn_fill : ∀ (d : δ) (x y : Int), Display.drawn (Display.fill d) x y = false
  /-- Painting does not change the size, wherever it goes. -/
  size_rect : ∀ {d e : δ} {p : Patch}, Display.rect d p = .ok e →
    Display.width e = Display.width d ∧ Display.height e = Display.height d
  /-- A rectangle that lies on the surface is painted, and nothing else is. -/
  rect_within : ∀ {d : δ} {p : Patch}, p.Within (Display.width d) (Display.height d) →
    ∃ e, Display.rect d p = .ok e ∧ ∀ x y : Int,
      Display.drawn e x y = if p.covers x y then p.bright else Display.drawn d x y
  width_flip : ∀ d : δ, Display.width (Display.flip d) = Display.width d
  height_flip : ∀ d : δ, Display.height (Display.flip d) = Display.height d
  shown_flip : ∀ (d : δ) (x y : Int), Display.shown (Display.flip d) x y = Display.drawn d x y

namespace Display

variable {δ : Type} [Display δ]

/-- Whether a display opens a window of the size that is asked for. -/
def Grants (d : δ) (askedWidth askedHeight : Int) : Prop :=
  ∃ e, openWindow d askedWidth askedHeight = .ok e ∧
    (width e : Int) = askedWidth ∧ (height e : Int) = askedHeight

variable (δ) in
/-- Whether displays of a type can wait for some time. -/
def Waits (delay : Amount) : Prop := ∀ d : δ, wait d delay = none

end Display

end HexConsole
