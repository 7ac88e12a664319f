import HexConsole.Proofs.Nominal
import HexConsole.Proofs.Stencil
import HexConsole.Window

/-!
# Painting a window

The squares of a window tile its surface, so what is painted of a frame can be read back point by
point: a point belongs to the pixel whose square it lies in. Of a display only its laws are used.
Main statement: repainting shows a surface that is bright exactly where the view is lit, whatever
the window showed before, and fails only where the view has no pixel.
-/
namespace HexConsole

/-- A square of a grid covers the points that fall to it when they are divided by its side. -/
theorem Patch.covers_square {side : Int} (positive : 0 < side) (x y px py : Int) (bright : Bool) :
    (Patch.mk (x * side) (y * side) side side bright).covers px py =
      decide (px / side = x ∧ py / side = y) := by
  have within (a p : Int) : (a * side ≤ p ∧ p < a * side + side) ↔ p / side = a := by
    have low := Int.le_ediv_iff_mul_le (a := a) (b := p) positive
    have high := Int.ediv_lt_iff_lt_mul (a := p) (b := a + 1) positive
    rw [Int.add_mul, Int.one_mul] at high
    omega
  simp only [covers, coversColumn, coversRow, ← Bool.decide_and, within]

/-- A point within some squares in a row lies in one of them. -/
theorem Patch.square_of_point {side count p : Int} (positive : 0 < side)
    (inside : 0 ≤ p ∧ p < count * side) : 0 ≤ p / side ∧ p / side < count :=
  ⟨Int.ediv_nonneg inside.1 (Int.le_of_lt positive), Int.ediv_lt_of_lt_mul positive inside.2⟩

/-- A view reads a pixel of its frame where the frame has one, by either name of its column and of
its row. -/
theorem View.pixel_of_named {width height : Int} (v : View width height) {x y i j : Int}
    (on : v.frame.inBounds x y = true) (column : i = x ∨ i = x - width)
    (row : j = y ∨ j = y - height) : v.pixel i j = .ok (v.frame.shows x y) := by
  have place := Frame.shows_of_inBounds v.frame on
  have wide := v.wide
  have tall := v.tall
  obtain ⟨⟨x_nonneg, x_lt⟩, y_nonneg, y_lt⟩ := Frame.inBounds_iff.mp on
  have down : position? height.toNat j = some ⟨y.toNat, by omega⟩ := by
    rw [position?_eq_some_iff]
    simp only
    omega
  have across : position? width.toNat i = some ⟨x.toNat, by omega⟩ := by
    rw [position?_eq_some_iff]
    simp only
    omega
  have offset : y.toNat * width.toNat + x.toNat = (y * width + x).toNat := by
    rw [Int.toNat_add (Int.mul_nonneg y_nonneg (by omega)) x_nonneg,
      Int.toNat_mul y_nonneg (by omega)]
  rw [place, pixel, down, across]
  simp only [Frame.place, offset]

theorem View.pixel_of_inBounds {width height : Int} (v : View width height) {x y : Int}
    (on : v.frame.inBounds x y = true) : v.pixel x y = .ok (v.frame.shows x y) :=
  v.pixel_of_named on (.inl rfl) (.inl rfl)

/-- Whether a display has the size of some pixels that are blown up to squares, and shows each of
its points as bright as the pixel that it belongs to. -/
structure Display.Shows {δ : Type} [Display δ] (d : δ) (scale columns rows : Int)
    (pixel : Int → Int → Except FrameError Bool) : Prop where
  wide : (Display.width d : Int) = columns * scale
  tall : (Display.height d : Int) = rows * scale
  points : ∀ px py : Nat, px < Display.width d → py < Display.height d →
    pixel (px / scale) (py / scale) = .ok (Display.shown d px py)

namespace Window

variable {δ : Type} [Display δ]

/-- A window whose squares tile its surface. -/
structure Fitted (scale columns rows : Int) (w : Window δ) : Prop where
  grid : w = ⟨scale, columns, rows, w.display⟩
  positive : 0 < scale
  wide : (Display.width w.display : Int) = columns * scale
  tall : (Display.height w.display : Int) = rows * scale

/-- A window with the same grid on a surface of the same size. -/
structure Congruent (w after : Window δ) : Prop where
  grid : after = { w with display := after.display }
  width : Display.width after.display = Display.width w.display
  height : Display.height after.display = Display.height w.display

theorem Congruent.refl (w : Window δ) : w.Congruent w := ⟨rfl, rfl, rfl⟩

theorem Congruent.trans {w v u : Window δ} (first : w.Congruent v) (second : v.Congruent u) :
    w.Congruent u where
  grid := by rw [second.grid, first.grid]
  width := second.width.trans first.width
  height := second.height.trans first.height

variable {scale columns rows : Int} {w after : Window δ}

theorem Fitted.congr (fitted : w.Fitted scale columns rows) (same : w.Congruent after) :
    after.Fitted scale columns rows where
  grid := by rw [same.grid, fitted.grid]
  positive := fitted.positive
  wide := by rw [same.width, fitted.wide]
  tall := by rw [same.height, fitted.tall]

/-- What some painting of bright squares has added to a window: the pixels of a stencil. -/
structure Inked (scale : Int) (w : Window δ) (ink : Stencil) (after : Window δ) : Prop
    extends w.Congruent after where
  drawn : ∀ px py, Display.drawn after.display px py =
    (ink (px / scale) (py / scale) || Display.drawn w.display px py)

theorem Inked.refl (scale : Int) (w : Window δ) : Inked scale w (fun _ _ => false) w :=
  ⟨.refl w, fun _ _ => rfl⟩

theorem Inked.trans {v u : Window δ} {p q : Stencil} (first : Inked scale w p v)
    (second : Inked scale v q u) : Inked scale w (p.union q) u where
  toCongruent := first.toCongruent.trans second.toCongruent
  drawn px py := by
    rw [second.drawn, first.drawn, Stencil.union, Bool.or_left_comm, Bool.or_assoc]

variable {width height : Int} {v : View width height}

/-- Some lit pixels of one row of a view. -/
def rowInk (v : View width height) (x y : Int) (count : Nat) : Stencil := fun a b =>
  decide (x ≤ a ∧ a < x + count ∧ b = y) && v.frame.shows a b

/-- The lit pixels of some rows of a view, up to a number of columns. -/
def rowsInk (v : View width height) (columns y : Int) (count : Nat) : Stencil := fun a b =>
  decide (0 ≤ a ∧ a < columns ∧ y ≤ b ∧ b < y + count) && v.frame.shows a b

theorem rowInk_zero (v : View width height) (x y : Int) :
    rowInk v x y 0 = fun _ _ => false := by
  funext a b
  simp only [rowInk, Bool.and_eq_false_imp, decide_eq_true_eq]
  omega

theorem rowInk_succ (v : View width height) (x y : Int) (count : Nat) :
    rowInk v x y (count + 1) = (rowInk v x y 1).union (rowInk v (x + 1) y count) := by
  funext a b
  simp only [rowInk, Stencil.union, ← Bool.and_or_distrib_right, ← Bool.decide_or]
  congr 2
  rw [eq_iff_iff]
  omega

theorem rowsInk_zero (v : View width height) (columns y : Int) :
    rowsInk v columns y 0 = fun _ _ => false := by
  funext a b
  simp only [rowsInk, Bool.and_eq_false_imp, decide_eq_true_eq]
  omega

theorem rowsInk_succ (v : View width height) (columns : Nat) (y : Int) (count : Nat) :
    rowsInk v columns y (count + 1) =
      (rowInk v 0 y columns).union (rowsInk v columns (y + 1) count) := by
  funext a b
  simp only [rowInk, rowsInk, Stencil.union, ← Bool.and_or_distrib_right, ← Bool.decide_or]
  congr 2
  rw [eq_iff_iff]
  omega

/-- The squares of the grid lie on the surface. -/
theorem Fitted.within (fitted : w.Fitted scale columns rows) {x y : Int}
    (column : 0 ≤ x ∧ x < columns) (row : 0 ≤ y ∧ y < rows) (bright : Bool) :
    (Patch.mk (x * scale) (y * scale) scale scale bright).Within (Display.width w.display)
      (Display.height w.display) := by
  have positive := fitted.positive
  have place {count n : Int} (inside : 0 ≤ n ∧ n < count) :
      0 ≤ n * scale ∧ n * scale + scale ≤ count * scale := by
    have last : (n + 1) * scale ≤ count * scale :=
      Int.mul_le_mul_of_nonneg_right (by omega) (by omega)
    rw [Int.add_mul, Int.one_mul] at last
    exact ⟨Int.mul_nonneg inside.1 (by omega), last⟩
  obtain ⟨left, right⟩ := place column
  obtain ⟨top, bottom⟩ := place row
  exact ⟨left, top, positive, positive, by rw [fitted.wide]; exact right,
    by rw [fitted.tall]; exact bottom⟩

section Laws

variable [LawfulDisplay δ]

theorem congruent_clear (w : Window δ) : w.Congruent w.clear :=
  ⟨rfl, LawfulDisplay.width_fill _, LawfulDisplay.height_fill _⟩

theorem congruent_update (w : Window δ) : w.Congruent w.update :=
  ⟨rfl, LawfulDisplay.width_flip _, LawfulDisplay.height_flip _⟩

/-- A bright square is the pixel that it stands for. -/
theorem inked_drawPixel (fitted : w.Fitted scale columns rows) {x y : Int}
    (column : 0 ≤ x ∧ x < columns) (row : 0 ≤ y ∧ y < rows) :
    ∃ after, w.drawPixel x y 1 = .ok after ∧ Inked scale w (Stencil.point x y) after := by
  obtain ⟨display, painted, drawn⟩ := LawfulDisplay.rect_within (fitted.within column row true)
  obtain ⟨width, height⟩ := LawfulDisplay.size_rect painted
  have square : w.square x y true = ⟨x * scale, y * scale, scale, scale, true⟩ := by
    rw [fitted.grid]
    rfl
  refine ⟨{ w with display }, ?_, ⟨rfl, width, height⟩, ?_⟩
  · simp [drawPixel, square, painted]
  · intro px py
    rw [drawn, Patch.covers_square fitted.positive, Stencil.point]
    cases decide (px / scale = x ∧ py / scale = y) <;> rfl

/-- One pixel of a row is painted if it is lit, and the row goes on behind it. -/
theorem inked_paintRow_succ (fitted : w.Fitted scale columns rows) {x y : Int}
    (on : v.frame.inBounds x y = true) (column : x < columns) (row : y < rows) (count : Nat) :
    ∃ after, paintRow v w x y (count + 1) = paintRow v after (x + 1) y count ∧
      Inked scale w (rowInk v x y 1) after := by
  have here (a b : Int) : rowInk v x y 1 a b =
      (Stencil.point x y a b && v.frame.shows x y) := by
    by_cases same : a = x ∧ b = y
    · obtain ⟨rfl, rfl⟩ := same
      have inside : a ≤ a ∧ a < a + (1 : Nat) ∧ b = b := by omega
      rw [rowInk, Stencil.point, decide_eq_true inside, decide_eq_true ⟨rfl, rfl⟩]
    · have other : ¬(x ≤ a ∧ a < x + (1 : Nat) ∧ b = y) := by omega
      rw [rowInk, Stencil.point, decide_eq_false other, decide_eq_false same, Bool.false_and,
        Bool.false_and]
  have read := v.pixel_of_inBounds on
  obtain ⟨⟨x_nonneg, -⟩, y_nonneg, -⟩ := Frame.inBounds_iff.mp on
  cases lit : v.frame.shows x y with
  | true =>
    have ink : rowInk v x y 1 = Stencil.point x y := by
      funext a b
      rw [here, lit, Bool.and_true]
    rw [ink]
    obtain ⟨after, painted, inked⟩ := inked_drawPixel fitted ⟨x_nonneg, column⟩ ⟨y_nonneg, row⟩
    refine ⟨after, ?_, inked⟩
    simp only [paintRow, read, lit, painted]
  | false =>
    have ink : rowInk v x y 1 = fun _ _ => false := by
      funext a b
      rw [here, lit, Bool.and_false]
    rw [ink]
    refine ⟨w, ?_, .refl scale w⟩
    simp only [paintRow, read, lit]

theorem inked_paintRow (fitted : w.Fitted scale columns rows) {x y : Int} (count : Nat)
    (column : 0 ≤ x) (across : x + count ≤ columns ∧ x + count ≤ width) (row : 0 ≤ y)
    (down : y < rows ∧ y < height) :
    ∃ after, paintRow v w x y count = (after, none) ∧
      Inked scale w (rowInk v x y count) after := by
  induction count generalizing w x with
  | zero =>
    rw [rowInk_zero]
    exact ⟨w, rfl, .refl scale w⟩
  | succ count ih =>
    have on : v.frame.inBounds x y = true :=
      Frame.inBounds_iff.mpr ⟨by omega, row, down.2⟩
    obtain ⟨next, goes, here⟩ := inked_paintRow_succ fitted on (by omega) down.1 count
    obtain ⟨after, painted, inked⟩ := ih (fitted.congr here.toCongruent) (x := x + 1) (by omega)
      (by omega)
    refine ⟨after, goes.trans painted, ?_⟩
    rw [rowInk_succ]
    exact here.trans inked

theorem inked_paintRows {columns : Nat} (fitted : w.Fitted scale columns rows)
    (wide : (columns : Int) ≤ width) {y : Int} (count : Nat) (row : 0 ≤ y)
    (down : y + count ≤ rows ∧ y + count ≤ height) :
    ∃ after, paintRows v w y count = (after, none) ∧
      Inked scale w (rowsInk v columns y count) after := by
  induction count generalizing w y with
  | zero =>
    rw [rowsInk_zero]
    exact ⟨w, rfl, .refl scale w⟩
  | succ count ih =>
    obtain ⟨first, painted, here⟩ := inked_paintRow (v := v) fitted columns (x := 0) (y := y)
      (by omega) (by omega) row (by omega)
    obtain ⟨after, others, inked⟩ := ih (fitted.congr here.toCongruent) (y := y + 1) (by omega)
      (by omega)
    have across : w.columns.toNat = columns := by
      rw [fitted.grid]
      rfl
    refine ⟨after, ?_, ?_⟩
    · simp only [paintRows, across, painted]
      exact others
    · rw [rowsInk_succ]
      exact here.trans inked

/-- A window that is repainted from a view which covers its grid shows the pixels of the view. -/
theorem drawFrame_of_covers (fitted : w.Fitted scale columns rows)
    (across : 0 ≤ columns ∧ columns ≤ width) (down : 0 ≤ rows ∧ rows ≤ height) :
    ∃ after, w.drawFrame v = (after, none) ∧ w.Congruent after ∧
      Display.Shows after.display scale columns rows v.pixel := by
  obtain ⟨columns, rfl⟩ := Int.eq_ofNat_of_zero_le across.1
  obtain ⟨rows, rfl⟩ := Int.eq_ofNat_of_zero_le down.1
  have cleared := congruent_clear w
  obtain ⟨after, painted, inked⟩ := inked_paintRows (v := v) (fitted.congr cleared) across.2 rows
    (y := 0) (by omega) (by omega)
  have same : w.Congruent after.update :=
    (cleared.trans inked.toCongruent).trans (congruent_update after)
  obtain ⟨grid, positive, wide, tall⟩ := fitted.congr same
  have lines : w.rows.toNat = rows := by
    rw [fitted.grid]
    rfl
  refine ⟨after.update, ?_, same, wide, tall, ?_⟩
  · simp only [drawFrame, lines, painted]
  · intro px py left top
    have column : 0 ≤ (px : Int) / scale ∧ (px : Int) / scale < columns :=
      Patch.square_of_point positive (by omega)
    have row : 0 ≤ (py : Int) / scale ∧ (py : Int) / scale < rows :=
      Patch.square_of_point positive (by omega)
    have on : v.frame.inBounds (px / scale) (py / scale) = true :=
      Frame.inBounds_iff.mpr ⟨by omega, by omega⟩
    have dark : Display.drawn w.clear.display px py = false := LawfulDisplay.drawn_fill _ _ _
    have seen : Display.shown after.update.display px py = Display.drawn after.display px py :=
      LawfulDisplay.shown_flip _ _ _
    rw [v.pixel_of_inBounds on, seen, inked.drawn, dark, Bool.or_false, rowsInk, Int.zero_add,
      decide_eq_true ⟨column.1, column.2, row.1, row.2⟩, Bool.true_and]

/-- A window that a display opens at the size that is asked for is dark at first. -/
theorem opened_of_grants {d : δ} (positive : 0 < scale)
    (grants : Display.Grants d (columns * scale) (rows * scale)) :
    ∃ w : Window δ, opened d scale columns rows = .ok w ∧ w.Fitted scale columns rows ∧
      ∀ x y, Display.shown w.display x y = false := by
  obtain ⟨display, granted, wide, tall⟩ := grants
  let fresh : Window δ := ⟨scale, columns, rows, display⟩
  have fitted : fresh.Fitted scale columns rows := ⟨rfl, positive, wide, tall⟩
  refine ⟨fresh.clear.update, ?_, ?_, ?_⟩
  · simp only [opened, granted, fresh]
  · exact (fitted.congr (congruent_clear _)).congr (congruent_update _)
  · intro x y
    exact (LawfulDisplay.shown_flip _ x y).trans (LawfulDisplay.drawn_fill _ x y)

end Laws

end Window

end HexConsole
