import HexConsole.Frame

/-!
# Stencils

A stencil says of every point of the plane whether it is cut out. Laid on a frame, it
inverts the pixels under its cut-out points; points that lie off the frame have no
effect. Two stencils that share no point can be laid on one after the other or as one.
-/
namespace HexConsole

abbrev Stencil := Int → Int → Bool

namespace Stencil

def point (x y : Int) : Stencil := fun u v => decide (u = x ∧ v = y)

def ofList (points : List (Int × Int)) : Stencil := fun u v => decide ((u, v) ∈ points)

def union (p q : Stencil) : Stencil := fun u v => p u v || q u v

def Disjoint (p q : Stencil) : Prop := ∀ u v, p u v = true → q u v = false

end Stencil

namespace Frame

variable {width height : Int}

/-- Whether a point is lit, as read from the store. -/
def shows (f : Frame width height) (x y : Int) : Bool := (f.pixel x y).toOption.getD false

/-- Whether the point that a place in the store stands for is cut out. -/
def under (p : Stencil) (k : Fin (width * height).toNat) : Bool :=
  p (k.val % width) (k.val / width)

def inverted (f : Frame width height) (p : Stencil) : Frame width height :=
  ⟨Vector.ofFn fun k => f.lit k ^^ under p k⟩

/-- Whether a lit pixel lies under the stencil. -/
def meets (f : Frame width height) (p : Stencil) : Bool :=
  decide (∃ k, f.lit k = true ∧ under p k = true)

theorem meets_eq_true {f : Frame width height} {p : Stencil} :
    f.meets p = true ↔ ∃ k, f.lit k = true ∧ under p k = true := decide_eq_true_iff

theorem ext_lit {f g : Frame width height} (h : ∀ k, f.lit k = g.lit k) : f = g := by
  obtain ⟨f⟩ := f
  obtain ⟨g⟩ := g
  congr
  ext i hi
  exact h ⟨i, hi⟩

@[simp] theorem lit_inverted (f : Frame width height) (p : Stencil)
    (k : Fin (width * height).toNat) : (f.inverted p).lit k = (f.lit k ^^ under p k) := by
  simp [lit, inverted]

/-! ## One stencil after another -/

theorem inverted_inverted {p q : Stencil} (apart : p.Disjoint q) (f : Frame width height) :
    (f.inverted p).inverted q = f.inverted (p.union q) := by
  apply ext_lit
  intro k
  have h := apart (k.val % width) (k.val / width)
  simp only [lit_inverted, under, Stencil.union]
  cases hp : p (k.val % width) (k.val / width) with
  | false => simp
  | true => simp [h hp]

theorem meets_inverted {p q : Stencil} (apart : p.Disjoint q) (f : Frame width height) :
    (f.inverted p).meets q = f.meets q := by
  rw [Bool.eq_iff_iff, meets_eq_true, meets_eq_true]
  simp only [lit_inverted]
  constructor <;> rintro ⟨k, lit, cut⟩ <;> refine ⟨k, ?_, cut⟩
  all_goals
    have clear : under p k = false := by
      cases h : under p k with
      | false => rfl
      | true => simp [under, apart _ _ h] at cut
    simpa [clear] using lit

theorem meets_union (p q : Stencil) (f : Frame width height) :
    f.meets (p.union q) = (f.meets p || f.meets q) := by
  rw [Bool.eq_iff_iff, Bool.or_eq_true, meets_eq_true, meets_eq_true, meets_eq_true, ← exists_or]
  simp only [under, Stencil.union, Bool.or_eq_true, and_or_left]

/-! ## Single points -/

theorem inBounds_iff {f : Frame width height} {x y : Int} :
    f.inBounds x y = true ↔ (0 ≤ x ∧ x < width) ∧ 0 ≤ y ∧ y < height := by
  simp only [inBounds, Bool.and_eq_true, decide_eq_true_eq, and_assoc]

theorem offset_bounds {f : Frame width height} {x y : Int} (h : f.inBounds x y = true) :
    0 ≤ y * width + x ∧ y * width + x < (width * height).toNat := by
  obtain ⟨⟨x_nonneg, x_lt⟩, y_nonneg, y_lt⟩ := inBounds_iff.mp h
  have low : 0 ≤ y * width := Int.mul_nonneg y_nonneg (by omega)
  have high : (y + 1) * width ≤ height * width := Int.mul_le_mul_of_nonneg_right y_lt (by omega)
  rw [Int.add_mul, Int.one_mul, Int.mul_comm height] at high
  omega

/-- The place in the store of a point on the frame. -/
def place (f : Frame width height) (x y : Int) (h : f.inBounds x y = true) :
    Fin (width * height).toNat :=
  ⟨(y * width + x).toNat, by have := offset_bounds h; omega⟩

theorem cell?_of_inBounds (f : Frame width height) {x y : Int} (h : f.inBounds x y = true) :
    f.cell? x y = some (f.place x y h) := by
  obtain ⟨low, high⟩ := offset_bounds h
  have place_eq : f.offset x y = ((f.place x y h).val : Int) := by
    simp [offset, place, Int.toNat_of_nonneg low]
  rw [cell?, place_eq]
  exact position?_ofNat _

theorem shows_of_inBounds (f : Frame width height) {x y : Int} (h : f.inBounds x y = true) :
    f.shows x y = f.lit (f.place x y h) := by
  simp [shows, pixel, cell?_of_inBounds f h, Except.toOption]

theorem pixel_of_inBounds (f : Frame width height) {x y : Int} (on : f.inBounds x y = true) :
    f.pixel x y = .ok (f.shows x y) := by
  simp [pixel, cell?_of_inBounds f on, shows_of_inBounds f on]

theorem shows_blank (x y : Int) : (blank : Frame width height).shows x y = false := by
  unfold shows pixel
  split
  · rfl
  · exact lit_blank _

/-- Different points of the frame have different places. -/
theorem under_point_iff {f : Frame width height} {x y : Int} (h : f.inBounds x y = true)
    (k : Fin (width * height).toNat) :
    under (Stencil.point x y) k = true ↔ f.place x y h = k := by
  have bounds := offset_bounds h
  obtain ⟨⟨x_nonneg, x_lt⟩, y_nonneg, y_lt⟩ := inBounds_iff.mp h
  have split := Int.mul_ediv_add_emod k.val width
  simp only [under, Stencil.point, place, Fin.ext_iff, decide_eq_true_eq]
  constructor
  · rintro ⟨rfl, rfl⟩
    rw [Int.mul_comm] at split
    omega
  · intro same
    have value : (k.val : Int) = x + y * width := by omega
    rw [value, Int.add_mul_emod_self_right, Int.add_mul_ediv_right _ _ (by omega)]
    rw [Int.emod_eq_of_lt x_nonneg x_lt, Int.ediv_eq_zero_of_lt x_nonneg x_lt]
    omega

theorem flip_place (f : Frame width height) {x y : Int} (h : f.inBounds x y = true) :
    f.flip (f.place x y h) = f.inverted (Stencil.point x y) := by
  apply ext_lit
  intro k
  have hit := under_point_iff h k
  simp only [lit_flip, lit_inverted]
  cases cut : under (Stencil.point x y) k with
  | true => rw [hit.mp cut]; simp
  | false => simp [← hit, cut]

theorem meets_point (f : Frame width height) {x y : Int} (h : f.inBounds x y = true) :
    f.meets (Stencil.point x y) = f.shows x y := by
  simp [meets, under_point_iff h, shows_of_inBounds f h]

/-! ## Points off the frame -/

/-- On a frame of some width, every place in the store stands for a point of the
frame. -/
theorem inBounds_place (f : Frame width height) (wide : 0 < width)
    (k : Fin (width * height).toNat) : f.inBounds (k.val % width) (k.val / width) = true := by
  have low : 0 ≤ (k.val : Int) % width := Int.emod_nonneg _ (by omega)
  have high : (k.val : Int) % width < width := Int.emod_lt_of_pos _ wide
  have row_nonneg : 0 ≤ (k.val : Int) / width := Int.ediv_nonneg (by omega) (by omega)
  have row_lt : (k.val : Int) / width < height := by
    apply Int.ediv_lt_of_lt_mul wide
    have total := Int.mul_comm height width
    omega
  exact inBounds_iff.mpr ⟨⟨low, high⟩, row_nonneg, row_lt⟩

theorem place_place (f : Frame width height) (wide : 0 < width) (k : Fin (width * height).toNat) :
    f.place _ _ (f.inBounds_place wide k) = k :=
  (under_point_iff _ k).mp (by simp [under, Stencil.point])

theorem inverted_of_clear (f : Frame width height) {p : Stencil}
    (clear : ∀ k : Fin (width * height).toNat, under p k = false) : f.inverted p = f := by
  apply ext_lit
  simp [clear]

theorem meets_of_clear (f : Frame width height) {p : Stencil}
    (clear : ∀ k : Fin (width * height).toNat, under p k = false) : f.meets p = false := by
  simp [meets, clear]

theorem point_clear {f : Frame width height} (wide : 0 < width) {x y : Int}
    (off : f.inBounds x y = false) (k : Fin (width * height).toNat) :
    under (Stencil.point x y) k = false := by
  cases cut : under (Stencil.point x y) k with
  | false => rfl
  | true =>
    have on := f.inBounds_place wide k
    simp only [under, Stencil.point, decide_eq_true_eq] at cut
    rw [cut.1, cut.2, off] at on
    cases on

/-- What an inverted frame shows at a point. -/
theorem shows_inverted (f : Frame width height) (p : Stencil) {x y : Int}
    (h : f.inBounds x y = true) : (f.inverted p).shows x y = (f.shows x y ^^ p x y) := by
  have here : under p (f.place x y h) = p x y := by
    obtain ⟨column, row⟩ : (f.place x y h).val % width = x ∧ (f.place x y h).val / width = y := by
      simpa [under, Stencil.point] using (under_point_iff h (f.place x y h)).mpr rfl
    rw [under, column, row]
  rw [shows_of_inBounds f h, ← here, ← lit_inverted]
  exact shows_of_inBounds (f.inverted p) h

theorem meets_iff (f : Frame width height) (wide : 0 < width) (p : Stencil) :
    f.meets p = true ↔ ∃ x y, f.inBounds x y = true ∧ f.shows x y = true ∧ p x y = true := by
  rw [meets_eq_true]
  constructor
  · rintro ⟨k, lit, cut⟩
    have on := f.inBounds_place wide k
    exact ⟨_, _, on, by rw [shows_of_inBounds f on, f.place_place wide]; exact lit, cut⟩
  · rintro ⟨x, y, on, lit, cut⟩
    refine ⟨f.place x y on, by rwa [← shows_of_inBounds f on], ?_⟩
    obtain ⟨column, row⟩ : (f.place x y on).val % width = x ∧ (f.place x y on).val / width = y := by
      simpa [under, Stencil.point] using (under_point_iff on (f.place x y on)).mpr rfl
    rwa [under, column, row]

end Frame

end HexConsole
