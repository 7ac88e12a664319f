import HexConsole.Proofs.Reading
import Mathlib.Algebra.Ring.Parity
import Mathlib.Data.List.DropRight

/-!
# Toggled frames

A frame of any geometry under toggles with any coordinates and clearings. Main statement: a toggle
is refused exactly if its offset names no cell, and otherwise inverts one cell, that of the offset
modulo the number of cells. So a cell is lit exactly if it has been named an odd number of times
since the frame was cleared.

Coordinates off the frame name cells of other rows, and negative offsets name cells from the end.
Only points on the frame have cells of their own.
-/
namespace HexConsole

/-- What can be done to a frame. -/
inductive Edit where
  | toggle (x y : Int)
  | clear
  deriving DecidableEq, Repr

namespace Edit

/-- Whether an edit of a frame inverts a cell, named by its place in the store or by its place
counted from the end. -/
def inverts (width height : Int) (k : Nat) : Edit → Bool
  | toggle x y => decide (y * width + x = k ∨ y * width + x = k - width * height)
  | clear => false

/-- How many of some edits have inverted a cell since the last clearing. -/
def inversions (width height : Int) (k : Nat) (edits : List Edit) : Nat :=
  (edits.rtakeWhile (· ≠ clear)).countP (inverts width height k)

variable {width height : Int} {k : Nat}

theorem inversions_clear (edits : List Edit) :
    inversions width height k (edits ++ [clear]) = 0 := by
  have cleared : (edits ++ [clear]).rtakeWhile (· ≠ clear) = [] :=
    List.rtakeWhile_concat_neg _ edits clear (by simp)
  rw [inversions, cleared, List.countP_nil]

theorem inversions_toggle (edits : List Edit) (x y : Int) :
    inversions width height k (edits ++ [toggle x y]) =
      inversions width height k edits + (inverts width height k (toggle x y)).toNat := by
  have kept : (edits ++ [toggle x y]).rtakeWhile (· ≠ clear) =
      edits.rtakeWhile (· ≠ clear) ++ [toggle x y] :=
    List.rtakeWhile_concat_pos _ edits (toggle x y) (by simp)
  rw [inversions, kept, List.countP_append, List.countP_singleton]
  cases inverts width height k (toggle x y) <;> rfl

end Edit

namespace Frame

variable {width height : Int}

/-- The frame after an edit. A toggle that is refused leaves it as it was. -/
def edited (f : Frame width height) : Edit → Frame width height
  | .toggle x y =>
    match f.toggle x y with
    | .ok (toggled, _) => toggled
    | .error _ => f
  | .clear => f.clear

def editedAll (f : Frame width height) (edits : List Edit) : Frame width height :=
  edits.foldl edited f

/-! ## One edit -/

/-- A toggle inverts the cell that its offset names. -/
theorem inverts_eq (f : Frame width height) (x y : Int) (k : Fin (width * height).toNat) :
    Edit.inverts width height k (.toggle x y) = decide (f.cell? x y = some k) := by
  have inside := k.isLt
  rw [Edit.inverts, decide_eq_decide, cell?, position?_eq_some_iff, offset]
  omega

theorem cell?_of_outside (f : Frame width height) {x y : Int}
    (outside : y * width + x < -(width * height) ∨ width * height ≤ y * width + x) :
    f.cell? x y = none := by
  rw [cell?, position?_eq_none_iff, offset]
  omega

/-- An offset that names a cell names that of its remainder. -/
theorem cell?_of_inside (f : Frame width height) {x y : Int}
    (low : -(width * height) ≤ y * width + x) (high : y * width + x < width * height) :
    ∃ k : Fin (width * height).toNat, f.cell? x y = some k ∧
      (k.val : Int) = (y * width + x) % (width * height) := by
  have nonneg := Int.emod_nonneg (y * width + x) (show width * height ≠ 0 by omega)
  have small := Int.emod_lt_of_pos (y * width + x) (show 0 < width * height by omega)
  refine ⟨⟨((y * width + x) % (width * height)).toNat, by omega⟩, ?_, Int.toNat_of_nonneg nonneg⟩
  rw [cell?, position?_eq_some_iff, offset, Int.toNat_of_nonneg nonneg]
  by_cases back : y * width + x < 0
  · rw [← Int.add_emod_right, Int.emod_eq_of_lt (by omega) (by omega)]
    omega
  · rw [Int.emod_eq_of_lt (by omega) high]
    exact .inl rfl

/-- A toggle with an offset that names no cell is refused. -/
theorem toggle_of_none {f : Frame width height} {x y : Int} (found : f.cell? x y = none) :
    f.toggle x y = .error (.offset (y * width + x)) ∧ f.edited (.toggle x y) = f := by
  have refused : f.toggle x y = .error (.offset (y * width + x)) := by
    simp only [toggle, found, offset]
  exact ⟨refused, by simp only [edited, refused]⟩

theorem toggle_of_some {f : Frame width height} {x y : Int} {k : Fin (width * height).toNat}
    (found : f.cell? x y = some k) :
    f.toggle x y = .ok (f.edited (.toggle x y), f.lit k) ∧
      f.edited (.toggle x y) = f.flip k := by
  have done : f.toggle x y = .ok (f.flip k, f.lit k) := by simp only [toggle, found]
  have after : f.edited (.toggle x y) = f.flip k := by simp only [edited, done]
  exact ⟨by rw [done, after], after⟩

theorem lit_toggled (f : Frame width height) (x y : Int) (k : Fin (width * height).toNat) :
    (f.edited (.toggle x y)).lit k =
      (f.lit k ^^ Edit.inverts width height k (.toggle x y)) := by
  rw [f.inverts_eq]
  cases found : f.cell? x y with
  | none =>
    rw [(toggle_of_none found).2]
    simp
  | some j =>
    rw [(toggle_of_some found).2, lit_flip]
    by_cases same : j = k
    · simp [same]
    · simp [same]

/-! ## Any edits -/

/-- A cell is lit exactly if it has been inverted an odd number of times since it was cleared. -/
theorem lit_editedAll (edits : List Edit) (k : Fin (width * height).toNat) :
    ((blank : Frame width height).editedAll edits).lit k = true ↔
      Odd (Edit.inversions width height k edits) := by
  induction edits using List.reverseRecOn with
  | nil => simp [editedAll, Edit.inversions]
  | append_singleton edits last ih =>
    have after : (blank : Frame width height).editedAll (edits ++ [last]) =
        (blank.editedAll edits).edited last := List.foldl_append
    rw [after]
    cases last with
    | clear => simp [Edit.inversions_clear, edited]
    | toggle x y =>
      rw [lit_toggled, Edit.inversions_toggle]
      cases Edit.inverts width height k (.toggle x y) with
      | false => simpa using ih
      | true => simp [Nat.odd_add_one, ← ih]

theorem isBlank_iff (f : Frame width height) :
    f.isBlank = true ↔ ∀ k, f.lit k = false := by
  simp [isBlank, lit, Vector.all_eq_true, Fin.forall_iff]

/-! ## Points on the frame -/

/-- Different points of the frame have different offsets. -/
theorem offset_injective {f : Frame width height} {x y u v : Int} (h : f.inBounds x y = true)
    (k : f.inBounds u v = true) (same : y * width + x = v * width + u) : x = u ∧ y = v := by
  have place : f.place x y h = f.place u v k := Fin.ext (congrArg Int.toNat same)
  have first := (under_point_iff h _).mpr place
  have second := (under_point_iff k (f.place u v k)).mpr rfl
  simp only [under, Stencil.point, decide_eq_true_eq] at first second
  exact ⟨first.1.symm.trans second.1, first.2.symm.trans second.2⟩

/-! ## Frames and the edits of their past -/

theorem eq_blank_of_make {room : Int} {f : Frame width height}
    (made : make room width height = .ok f) : f = blank := by
  unfold make at made
  split_ifs at made
  exact (Except.ok.inj made).symm

/-- A frame is made if its pixels can be counted and there is room for them. -/
theorem make_of_room {room : Int} (size : 0 ≤ width * height)
    (counted : fitsIndex (width * height) = true) (small : width * height ≤ room) :
    make room width height = .ok blank := by
  have positive : ¬width * height < 0 := by omega
  have enough : ¬room < width * height := by omega
  simp only [make, counted, Bool.not_true, Bool.false_eq_true, if_false, if_neg positive,
    if_neg enough]

/-- A frame of any geometry, after any edits of a blank one. Frames are blank when they are made,
and are made wherever there is room for them. A frame that is edited keeps its number of cells. A
toggle is refused, and changes nothing, exactly if its offset names no cell; otherwise it inverts
the cell of the offset modulo the number of cells, and tells whether that was lit. A cell is lit
exactly if an odd number of toggles has named it, from either end, since the last clearing. Points
on the frame name cells from the front, and each its own. -/
theorem toggles_parity (size : 0 ≤ width * height) (edits : List Edit) :
    let f : Frame width height := blank.editedAll edits
    let total := width * height
    let count (k : Fin total.toNat) := Edit.inversions width height k edits
    (∀ room, (∀ g, make room width height = .ok g → g = blank) ∧
      (fitsIndex total = true → total ≤ room → make room width height = .ok blank)) ∧
    (f.cells.toArray.size : Int) = total ∧
    (∀ x y, let o := y * width + x
      (o < -total ∨ total ≤ o →
        f.toggle x y = .error (.offset o) ∧ f.edited (.toggle x y) = f) ∧
      (-total ≤ o → o < total → ∃ k, (k.val : Int) = o % total ∧
        f.toggle x y = .ok (f.edited (.toggle x y), f.lit k) ∧
        ∀ j, (f.edited (.toggle x y)).lit j = if k = j then !f.lit k else f.lit j)) ∧
    (∀ k, f.lit k = true ↔ Odd (count k)) ∧
    (f.isBlank = true ↔ ∀ k, Even (count k)) ∧
    (∀ ch ∈ f.text.toList, ch = '█' ∨ ch = ' ' ∨ ch = '\n') ∧
    ∀ x y, f.inBounds x y = true →
      (0 ≤ y * width + x ∧ y * width + x < total) ∧
      ∀ u v, f.inBounds u v = true → y * width + x = v * width + u → x = u ∧ y = v := by
  intro f total count
  refine ⟨fun room => ⟨fun g => eq_blank_of_make, make_of_room size⟩, ?_, ?_, lit_editedAll edits,
    ?_, fun ch => mem_text, ?_⟩
  · rw [Vector.size_toArray]
    omega
  · intro x y o
    constructor
    · intro outside
      exact toggle_of_none (f.cell?_of_outside outside)
    · intro low high
      obtain ⟨k, found, place⟩ := f.cell?_of_inside low high
      obtain ⟨done, after⟩ := toggle_of_some found
      refine ⟨k, place, done, ?_⟩
      intro j
      rw [after, lit_flip]
  · rw [isBlank_iff]
    apply forall_congr'
    intro k
    rw [← Bool.not_eq_true, lit_editedAll, Nat.not_odd_iff_even]
  · intro x y on
    have bounds := offset_bounds on
    exact ⟨by omega, fun u v other => offset_injective on other⟩

/-- On a frame of -2 columns and -3 rows, the first cell is named from either end, and a toggle that
is refused does not count. -/
theorem toggles_parity_negative :
    let edits : List Edit :=
      [.toggle 3 0, .clear, .toggle 0 0, .toggle 6 0, .toggle 0 3, .toggle 2 1]
    let f : Frame (-2) (-3) := blank.editedAll edits
    0 ≤ (-2 : Int) * -3 ∧ f.lit ⟨0, by decide⟩ = true ∧ f.isBlank = false := by
  intro edits f
  have size : 0 ≤ (-2 : Int) * -3 := by decide
  obtain ⟨-, -, -, lit, blank, -⟩ := toggles_parity size edits
  refine ⟨size, (lit _).mpr (by decide), ?_⟩
  rw [Bool.eq_false_iff, ne_eq, blank]
  intro all
  exact absurd (all ⟨0, by decide⟩) (by decide)

end Frame

end HexConsole
