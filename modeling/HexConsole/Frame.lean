import HexConsole.Cells

/-!
# Frames

A frame is a grid of pixels, stored row after row. Reading and toggling address
the store directly, so a column past the right edge reaches the next row and a
negative offset counts from the end; only `inBounds` looks at the edges. Both
dimensions may be negative as long as their product is not.
-/
namespace HexConsole

inductive FrameError where
  /-- A number of pixels that is wider than a word. -/
  | wideSize
  /-- More pixels than there is room for. -/
  | noRoom
  | negativeSize
  /-- An offset outside the store. -/
  | offset (offset : Int)
  /-- A view of no pixels. -/
  | noPixels
  /-- A view with a negative dimension. -/
  | negativeShape
  | row (y : Int)
  | column (x : Int)
  deriving DecidableEq, Repr

def FrameError.message : FrameError → String
  | wideSize => tooWide
  | noRoom => ""
  | negativeSize => "negative count"
  | offset o => indexComplaint o "bytearray index out of range"
  | noPixels => "memoryview: cannot cast view with zeros in shape or strides"
  | negativeShape => "memoryview.cast(): elements of shape must be integers > 0"
  | row y => indexComplaint y "index out of bounds on dimension 1"
  | column x => indexComplaint x "index out of bounds on dimension 2"

structure Frame (width height : Int) where
  cells : Vector Bool (width * height).toNat
  deriving DecidableEq

namespace Frame

variable {width height : Int}

def blank : Frame width height := ⟨Vector.replicate _ false⟩

/-- A blank frame, unless the number of pixels is negative or there is no room for so
many. -/
def make (room width height : Int) : Except FrameError (Frame width height) :=
  if !fitsIndex (width * height) then .error .wideSize
  else if width * height < 0 then .error .negativeSize
  else if room < width * height then .error .noRoom
  else .ok blank

def inBounds (_ : Frame width height) (x y : Int) : Bool :=
  decide (0 ≤ x) && decide (x < width) && decide (0 ≤ y) && decide (y < height)

/-- The place of a coordinate pair in the store, which may lie outside it. -/
def offset (_ : Frame width height) (x y : Int) : Int := y * width + x

def cell? (f : Frame width height) (x y : Int) : Option (Fin (width * height).toNat) :=
  position? _ (f.offset x y)

def lit (f : Frame width height) (k : Fin (width * height).toNat) : Bool := f.cells[k]

def flip (f : Frame width height) (k : Fin (width * height).toNat) : Frame width height :=
  ⟨f.cells.set k.val (!f.lit k)⟩

@[simp] theorem lit_blank (k : Fin (width * height).toNat) :
    (blank : Frame width height).lit k = false := by simp [lit, blank]

@[simp] theorem lit_flip (f : Frame width height) (k j : Fin (width * height).toNat) :
    (f.flip k).lit j = if k = j then !f.lit k else f.lit j := by
  simp [lit, flip, Vector.getElem_set, Fin.ext_iff]

def pixel (f : Frame width height) (x y : Int) : Except FrameError Bool :=
  match f.cell? x y with
  | none => .error (.offset (f.offset x y))
  | some k => .ok (f.lit k)

/-- Inverts one pixel and tells whether it was lit before. -/
def toggle (f : Frame width height) (x y : Int) :
    Except FrameError (Frame width height × Bool) :=
  match f.cell? x y with
  | none => .error (.offset (f.offset x y))
  | some k => .ok (f.flip k, f.lit k)

/-- Turns off every pixel. -/
def clear (f : Frame width height) : Frame width height := ⟨f.cells.map fun _ => false⟩

@[simp] theorem clear_eq_blank (f : Frame width height) : f.clear = blank :=
  congrArg mk Vector.map_const

def isBlank (f : Frame width height) : Bool := f.cells.all (!·)

/-- The pixels of row `y`, counted from the top. -/
def row (f : Frame width height) (y : Nat) : List Bool :=
  (f.cells.toArray.extract (y * width.toNat) (y * width.toNat + width.toNat)).toList

def rows (f : Frame width height) : List (List Bool) :=
  (List.range height.toNat).map f.row

/-- A lit pixel is a full block and an unlit one a space. -/
def ink (lit : Bool) : Char := if lit then '█' else ' '

def lines (f : Frame width height) : List String :=
  f.rows.map fun r => String.ofList (r.map ink)

def text (f : Frame width height) : String := "\n".intercalate f.lines

end Frame

theorem row_offset_lt {w h r c : Nat} (hr : r < h) (hc : c < w) : r * w + c < w * h :=
  calc r * w + c < r * w + w := by omega
    _ = (r + 1) * w := by rw [Nat.add_mul, Nat.one_mul]
    _ ≤ h * w := Nat.mul_le_mul_right w hr
    _ = w * h := Nat.mul_comm h w

theorem view_offset_lt {width height : Int} (wide : 0 < width) (tall : 0 < height)
    (r : Fin height.toNat) (c : Fin width.toNat) :
    r.val * width.toNat + c.val < (width * height).toNat := by
  rw [Int.toNat_mul (by omega) (by omega)]
  exact row_offset_lt r.isLt c.isLt

/-- A frame read by rows and columns. It exists only where both dimensions are
positive. -/
structure View (width height : Int) where
  frame : Frame width height
  wide : 0 < width
  tall : 0 < height

def Frame.view {width height : Int} (f : Frame width height) :
    Except FrameError (View width height) :=
  if width * height = 0 then .error .noPixels
  else if h : 0 < width ∧ 0 < height then .ok ⟨f, h.1, h.2⟩
  else .error .negativeShape

namespace View

variable {width height : Int}

/-- The pixel in column `x` of row `y`. Negative numbers count from the end of
their own axis, and the row is looked up first. -/
def pixel (v : View width height) (x y : Int) : Except FrameError Bool :=
  match position? height.toNat y with
  | none => .error (.row y)
  | some r =>
    match position? width.toNat x with
    | none => .error (.column x)
    | some c => .ok (v.frame.lit
        ⟨r.val * width.toNat + c.val, view_offset_lt v.wide v.tall r c⟩)

end View

end HexConsole
