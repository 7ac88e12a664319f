import Mathlib.Tactic.SplitIfs
import HexConsole.Canvas

/-!
# A canvas is a display

A canvas keeps the laws of a display. The numbers of a rectangle on its surface are small, so they
are read as what they are. Main statement: a canvas opens every window whose sides are not too long,
at the size that is asked for.
-/
namespace HexConsole

theorem Patch.brightUnder_cons (p : Patch) (rest : List Patch) (x y : Int) :
    brightUnder (p :: rest) x y = if p.covers x y then p.bright else brightUnder rest x y := by
  unfold brightUnder
  rw [List.find?_cons]
  cases p.covers x y <;> rfl

theorem Picture.bright_put (p : Picture) (patch : Patch) (x y : Int) :
    (p.put patch).bright x y = if patch.covers x y then patch.bright else p.bright x y :=
  Patch.brightUnder_cons patch p.patches x y

namespace Canvas

theorem read_small {n : Int} (least : 0 ≤ n) (most : n ≤ longestSide) :
    fitsIndex n = true ∧ word n = n := by
  unfold longestSide at most
  refine ⟨?_, word_eq_self (by omega) (by omega)⟩
  simp only [fitsIndex, Bool.and_eq_true, decide_eq_true_eq]
  omega

/-- A rectangle on the surface is read as it is. -/
theorem read_of_within {c : Canvas} {p : Patch}
    (within : p.Within c.hidden.width c.hidden.height) : readable p = true ∧ read p = p := by
  obtain ⟨left, top, wide, tall, right, bottom⟩ := within
  have narrow := c.narrow
  have low := c.low
  unfold longestSide at narrow low
  have l := read_small left (by unfold longestSide; omega)
  have t := read_small top (by unfold longestSide; omega)
  have w := read_small (Int.le_of_lt wide) (by unfold longestSide; omega)
  have h := read_small (Int.le_of_lt tall) (by unfold longestSide; omega)
  constructor
  · simp only [readable, l.1, t.1, w.1, h.1, Bool.and_self]
  · simp only [read, l.2, t.2, w.2, h.2]

instance : LawfulDisplay Canvas where
  width_fill _ := rfl
  height_fill _ := rfl
  drawn_fill _ _ _ := rfl
  size_rect := by
    intro d e p painted
    simp only [Display.rect] at painted
    split_ifs at painted
    cases painted
    exact ⟨rfl, rfl⟩
  rect_within := by
    intro d p within
    obtain ⟨readable, same⟩ := read_of_within within
    refine ⟨d.painted p, if_pos readable, ?_⟩
    intro x y
    have drawn : Display.drawn (d.painted p) x y = (d.hidden.put (read p)).bright x y := rfl
    rw [drawn, same]
    exact d.hidden.bright_put p x y
  width_flip _ := rfl
  height_flip _ := rfl
  shown_flip _ _ _ := rfl

/-- Sides that are not too long are taken for what they are. -/
theorem granted_of_small (full : WindowSize) {width height : Int}
    (wide : 1 ≤ width ∧ width ≤ longestSide) (tall : 1 ≤ height ∧ height ≤ longestSide) :
    ∃ size, granted full width height = .ok size ∧ (size.width : Int) = width ∧
      (size.height : Int) = height := by
  have across := read_small (Int.le_trans (by decide) wide.1) wide.2
  have down := read_small (Int.le_trans (by decide) tall.1) tall.2
  have positive : ¬(width < 0 ∨ height < 0) := by omega
  have some : ¬(width = 0 ∧ height = 0) := by omega
  have kept {n : Int} (least : 1 ≤ n) : (side n : Int) = n := by
    unfold side
    omega
  refine ⟨⟨side width, side height, ?_, ?_⟩, ?_, kept wide.1, kept tall.1⟩
  · have := kept wide.1
    omega
  · have := kept tall.1
    omega
  · simp only [granted, across, down, Bool.and_self, Bool.not_true, Bool.false_eq_true, if_false,
      if_neg positive, if_neg some, dif_pos (And.intro wide.2 tall.2)]

theorem grants (c : Canvas) {width height : Int} (wide : 1 ≤ width ∧ width ≤ longestSide)
    (tall : 1 ≤ height ∧ height ≤ longestSide) : Display.Grants c width height := by
  obtain ⟨size, granted, across, down⟩ := granted_of_small c.full wide tall
  exact ⟨c.resized size, congrArg (Except.map c.resized) granted, across, down⟩

theorem waits (delay : Amount) : Display.Waits Canvas delay := fun _ => rfl

end Canvas

end HexConsole
