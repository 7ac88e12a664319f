import HexConsole.Cells
import HexConsole.Picture

/-!
# A canvas

A display that keeps its surface, and what it shows, as pictures. It counts points in
words of 32 bits. Its windows have at least one point each way and no more than 16384,
and a window of no size covers the whole display. A canvas knows no time, so it never
keeps anybody waiting.
-/
namespace HexConsole

namespace Canvas

/-- The longest side of a window. -/
def longestSide : Nat := 16384

end Canvas

/-- A size that a window may have. -/
structure WindowSize where
  width : Nat
  height : Nat
  narrow : width ≤ Canvas.longestSide
  low : height ≤ Canvas.longestSide

structure Canvas where
  /-- The size of the whole display. -/
  full : WindowSize
  hidden : Picture
  visible : Picture
  narrow : hidden.width ≤ Canvas.longestSide
  low : hidden.height ≤ Canvas.longestSide

namespace Canvas

/-- A display without a window. -/
def idle (full : WindowSize) : Canvas :=
  ⟨full, .dark 0 0, .dark 0 0, Nat.zero_le _, Nat.zero_le _⟩

/-- The low 32 bits of an integer, read with a sign. -/
def word (n : Int) : Int := n.bmod 0x100000000

theorem word_eq_self {n : Int} (low : -0x80000000 ≤ n) (high : n < 0x80000000) : word n = n := by
  unfold word
  exact Int.bmod_eq_of_le (by omega) (by omega)

def unreadableSize : Complaint := ⟨"TypeError", "size must be two numbers"⟩

def negativeSize : Complaint := ⟨"error", "Cannot set negative sized display mode"⟩

def tooLarge : Complaint := ⟨"error", "Window is too large."⟩

def unreadablePlace : Complaint := ⟨"TypeError", "rect argument is invalid"⟩

/-- The side of a window for which another one was asked. -/
def side (asked : Int) : Nat := max asked.toNat 1

/-- The size of a window for which another one was asked. -/
def granted (full : WindowSize) (askedWidth askedHeight : Int) : Except Complaint WindowSize :=
  let width := word askedWidth
  let height := word askedHeight
  if !(fitsIndex askedWidth && fitsIndex askedHeight) then .error unreadableSize
  else if width < 0 ∨ height < 0 then .error negativeSize
  else if width = 0 ∧ height = 0 then .ok full
  else if h : width ≤ longestSide ∧ height ≤ longestSide then
    .ok ⟨side width, side height, by unfold side longestSide at *; omega,
      by unfold side longestSide at *; omega⟩
  else .error tooLarge

/-- The canvas with a dark window of some size. -/
def resized (c : Canvas) (size : WindowSize) : Canvas :=
  { c with hidden := .dark size.width size.height, narrow := size.narrow, low := size.low }

def filled (c : Canvas) : Canvas := { c with hidden := .dark c.hidden.width c.hidden.height }

/-- A rectangle as it is read word by word. -/
def read (p : Patch) : Patch :=
  { p with left := word p.left, top := word p.top, width := word p.width, height := word p.height }

/-- Whether the numbers of a rectangle can be read at all. -/
def readable (p : Patch) : Bool :=
  fitsIndex p.left && fitsIndex p.top && fitsIndex p.width && fitsIndex p.height

def painted (c : Canvas) (p : Patch) : Canvas := { c with hidden := c.hidden.put (read p) }

def flipped (c : Canvas) : Canvas := { c with visible := c.hidden }

end Canvas

instance : Display Canvas where
  openWindow c width height := (Canvas.granted c.full width height).map c.resized
  sizeComplaint _ := Canvas.unreadableSize
  fill := Canvas.filled
  rect c p := if Canvas.readable p then .ok (c.painted p) else .error Canvas.unreadablePlace
  flip := Canvas.flipped
  wait _ _ := none
  width c := c.hidden.width
  height c := c.hidden.height
  drawn c := c.hidden.bright
  shown c := c.visible.bright

end HexConsole
