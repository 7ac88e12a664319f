import HexConsole.Proofs.Lines
import HexConsole.Proofs.Painting
import Mathlib.Data.List.Basic

/-!
# Readers of a frame

A frame is read pixel by pixel from its store, by rows and columns through a view, and as text. Main
statement: on a frame with a pixel they all read the same, and two frames of one size have the same
text only if they have the same pixels.
-/
namespace HexConsole

/-- Nothing but the separator and the characters of the pieces gets into a joined list. -/
theorem mem_of_mem_intercalate {α : Type} {sep a : α} {pieces : List (List α)}
    (member : a ∈ [sep].intercalate pieces) : a = sep ∨ ∃ p ∈ pieces, a ∈ p := by
  induction pieces with
  | nil => simp at member
  | cons p rest ih =>
    cases rest with
    | nil => exact .inr ⟨p, by simp, by simpa using member⟩
    | cons q rest =>
      rw [List.intercalate_cons_cons, List.append_assoc, List.mem_append, List.mem_append] at member
      obtain here | between | later := member
      · exact .inr ⟨p, by simp, here⟩
      · exact .inl (List.mem_singleton.mp between)
      · obtain same | ⟨r, other, inside⟩ := ih later
        · exact .inl same
        · exact .inr ⟨r, List.mem_cons_of_mem p other, inside⟩

namespace Frame

variable {width height : Int}

/-! ## Pixels and views -/

theorem view_of_positive (f : Frame width height) (wide : 0 < width) (tall : 0 < height) :
    f.view = .ok ⟨f, wide, tall⟩ := by
  have positive := Int.mul_pos wide tall
  rw [view, if_neg (by omega), dif_pos ⟨wide, tall⟩]

/-- A frame is known from what it shows at its points. -/
theorem ext_shows {f g : Frame width height} (wide : 0 < width)
    (same : ∀ x y, f.inBounds x y = true → f.shows x y = g.shows x y) : f = g := by
  apply ext_lit
  intro k
  have on := f.inBounds_place wide k
  have here := same _ _ on
  rwa [shows_of_inBounds f on, shows_of_inBounds g on, place_place f wide,
    place_place g wide] at here

/-! ## Rows and text -/

/-- The rows of a frame end within its store. -/
theorem row_end_le (wide : 0 < width) {y : Nat} (down : (y : Int) < height) :
    y * width.toNat + width.toNat ≤ (width * height).toNat := by
  rw [Int.toNat_mul (by omega) (by omega)]
  calc y * width.toNat + width.toNat = (y + 1) * width.toNat := by rw [Nat.add_mul, Nat.one_mul]
    _ ≤ height.toNat * width.toNat := Nat.mul_le_mul_right _ (by omega)
    _ = width.toNat * height.toNat := Nat.mul_comm _ _

theorem length_row (f : Frame width height) (wide : 0 < width) {y : Nat}
    (down : (y : Int) < height) : (f.row y).length = width.toNat := by
  have inside := row_end_le wide down
  rw [row, Array.length_toList, Array.size_extract, Vector.size_toArray]
  omega

theorem getElem?_row (f : Frame width height) {x y : Nat} (across : (x : Int) < width)
    (down : (y : Int) < height) : (f.row y)[x]? = some (f.shows x y) := by
  have on : f.inBounds x y = true := inBounds_iff.mpr ⟨by omega, by omega⟩
  have wide : 0 < width := by omega
  have inside := row_end_le wide down
  have offset : ((y : Int) * width + x).toNat = y * width.toNat + x := by
    rw [Int.toNat_add (Int.mul_nonneg (by omega) (by omega)) (by omega),
      Int.toNat_mul (by omega) (by omega), Int.toNat_natCast, Int.toNat_natCast]
  have first : x < min (y * width.toNat + width.toNat) f.cells.toArray.size - y * width.toNat := by
    rw [Vector.size_toArray]
    omega
  rw [row, Array.getElem?_toList, Array.getElem?_extract, if_pos first, shows_of_inBounds f on]
  simp only [lit, place, offset]
  exact Array.getElem?_eq_getElem _

theorem toList_text (f : Frame width height) :
    f.text.toList = ['\n'].intercalate (f.rows.map (List.map ink)) := by
  simp [text, lines, String.toList_intercalate, Function.comp_def]

theorem ink_eq_iff (lit : Bool) : (ink lit = '█' ↔ lit = true) ∧ (ink lit = ' ' ↔ lit = false) := by
  cases lit <;> decide

/-- The text of a frame consists of nothing but pixels and line breaks. -/
theorem mem_text {f : Frame width height} {ch : Char} (member : ch ∈ f.text.toList) :
    ch = '█' ∨ ch = ' ' ∨ ch = '\n' := by
  rw [toList_text] at member
  obtain rfl | ⟨p, piece, inside⟩ := mem_of_mem_intercalate member
  · exact .inr (.inr rfl)
  · obtain ⟨r, -, rfl⟩ := List.mem_map.mp piece
    obtain ⟨lit, -, rfl⟩ := List.mem_map.mp inside
    cases lit
    · exact .inr (.inl rfl)
    · exact .inl rfl

/-- The text of a frame that has rows, split at its line breaks. -/
theorem splitOn_text (f : Frame width height) (tall : 0 < height) :
    f.text.toList.splitOn '\n' = f.rows.map (List.map ink) := by
  rw [toList_text]
  apply List.splitOn_intercalate
  · intro p piece inside
    obtain ⟨r, -, rfl⟩ := List.mem_map.mp piece
    obtain ⟨lit, -, same⟩ := List.mem_map.mp inside
    cases lit <;> exact absurd same (by decide)
  · simp only [rows, ne_eq, List.map_eq_nil_iff, List.range_eq_nil]
    omega

/-- No line of the text holds a line break. -/
theorem break_not_mem_lines (f : Frame width height) : ∀ l ∈ f.lines, '\n' ∉ l.toList := by
  intro l member inside
  obtain ⟨r, -, rfl⟩ := List.mem_map.mp member
  obtain ⟨lit, -, same⟩ := List.mem_map.mp (String.toList_ofList ▸ inside)
  cases lit <;> exact absurd same (by decide)

/-- The text, ended by a line break like each of its lines. -/
theorem text_terminated (f : Frame width height) (tall : 0 < height) :
    f.text ++ "\n" = String.join (f.lines.map (· ++ "\n")) := by
  have lines : f.lines ≠ [] := by
    simp only [lines, rows, ne_eq, List.map_eq_nil_iff, List.range_eq_nil]
    omega
  exact intercalate_terminated lines

theorem getElem?_rows (f : Frame width height) {y : Nat} (down : (y : Int) < height) :
    f.rows[y]? = some (f.row y) := by
  simp only [rows, List.getElem?_map, List.getElem?_range (show y < height.toNat by omega),
    Option.map_some]

theorem ink_injective : Function.Injective ink := by
  intro a b same
  have first := ink_eq_iff a
  rw [same, (ink_eq_iff b).1] at first
  exact Bool.eq_iff_iff.mpr first.1.symm

/-- The text of a frame tells it from all others of its size. -/
theorem text_injective (wide : 0 < width) (tall : 0 < height) {f g : Frame width height}
    (same : f.text = g.text) : f = g := by
  have rows : f.rows = g.rows := by
    have pieces := f.splitOn_text tall
    rw [same, g.splitOn_text tall] at pieces
    exact (List.map_injective_iff.mpr (List.map_injective_iff.mpr ink_injective) pieces).symm
  apply ext_shows wide
  intro x y on
  obtain ⟨⟨x_nonneg, across⟩, y_nonneg, down⟩ := inBounds_iff.mp on
  obtain ⟨a, rfl⟩ := Int.eq_ofNat_of_zero_le x_nonneg
  obtain ⟨b, rfl⟩ := Int.eq_ofNat_of_zero_le y_nonneg
  have row : f.row b = g.row b := by
    have here := f.getElem?_rows down
    rw [rows, g.getElem?_rows down] at here
    exact (Option.some.inj here).symm
  have pixel := f.getElem?_row across down
  rw [row, g.getElem?_row across down] at pixel
  exact (Option.some.inj pixel).symm

/-! ## All readers -/

/-- All ways to read a frame that has a pixel agree on every pixel: the store, a view by either name
of a row and of a column, and the text. The text has a line for each row, with a character for each
pixel of it, and so frames of one size have the same text exactly if they have the same pixels. -/
theorem readers_agree (wide : 1 ≤ width) (tall : 1 ≤ height) (f : Frame width height) :
    let pieces := f.text.toList.splitOn '\n'
    ((pieces.length : Int) = height ∧ ∀ p ∈ pieces, (p.length : Int) = width) ∧
    (∃ v, f.view = .ok v ∧ ∀ x y : Nat, (x : Int) < width → (y : Int) < height →
      ∃ lit, f.pixel x y = .ok lit ∧
        (∀ i j : Int, (i = x ∨ i = x - width) → (j = y ∨ j = y - height) →
          v.pixel i j = .ok lit) ∧
        ∃ p ch, pieces[y]? = some p ∧ p[x]? = some ch ∧
          (ch = '█' ↔ lit = true) ∧ (ch = ' ' ↔ lit = false)) ∧
    ∀ g : Frame width height, f.text = g.text ↔
      ∀ x y, f.inBounds x y = true → f.pixel x y = g.pixel x y := by
  intro pieces
  have pieces_eq : pieces = f.rows.map (List.map ink) := f.splitOn_text tall
  refine ⟨⟨?_, ?_⟩, ⟨⟨f, wide, tall⟩, f.view_of_positive wide tall, ?_⟩, ?_⟩
  · rw [pieces_eq, List.length_map, rows, List.length_map, List.length_range]
    omega
  · intro p piece
    rw [pieces_eq, List.mem_map] at piece
    obtain ⟨r, member, rfl⟩ := piece
    obtain ⟨y, down, rfl⟩ := List.mem_map.mp member
    rw [List.mem_range] at down
    rw [List.length_map, f.length_row wide (by omega)]
    omega
  · intro x y across down
    have on : f.inBounds x y = true := inBounds_iff.mpr ⟨by omega, by omega⟩
    refine ⟨f.shows x y, f.pixel_of_inBounds on, ?_, (f.row y).map ink, ink (f.shows x y), ?_, ?_,
      ink_eq_iff _⟩
    · intro i j column row
      exact View.pixel_of_named _ on column row
    · rw [pieces_eq, List.getElem?_map, f.getElem?_rows down, Option.map_some]
    · rw [List.getElem?_map, f.getElem?_row across down, Option.map_some]
  · intro g
    constructor
    · intro same x y on
      rw [text_injective wide tall same]
    · intro same
      have equal : f = g := by
        apply ext_shows wide
        intro x y on
        rw [shows, shows, same x y on]
      rw [equal]

/-- A frame of three columns and two rows, with a pixel lit in the last column of the first. -/
theorem readers_agree_corner :
    let f : Frame 3 2 := blank.flip ⟨2, by decide⟩
    (1 ≤ (3 : Int) ∧ 1 ≤ (2 : Int)) ∧
      f.text.toList.splitOn '\n' = [[' ', ' ', '█'], [' ', ' ', ' ']] ∧
      ∃ v, f.view = .ok v ∧ v.pixel 2 0 = .ok true ∧ v.pixel (-1) (-2) = .ok true ∧
        f.text ≠ (blank : Frame 3 2).text := by
  intro f
  obtain ⟨-, ⟨v, seen, reads⟩, tells⟩ := readers_agree (by decide) (by decide) f
  obtain ⟨lit, pixel, view, -⟩ := reads 2 0 (by decide) (by decide)
  have here : f.pixel (2 : Nat) (0 : Nat) = .ok true := rfl
  rw [here] at pixel
  cases pixel
  refine ⟨by decide, by decide +kernel, v, seen, view 2 0 (by decide) (by decide),
    view (-1) (-2) (by decide) (by decide), ?_⟩
  intro same
  exact absurd ((tells blank).mp same 2 0 (by decide)) (by decide)

end Frame

end HexConsole
