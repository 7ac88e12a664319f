import HexConsole.Proofs.Nominal

/-!
# Sprites as stencils

Drawing visits the set bits of a sprite one by one. Each of them inverts a pixel and
may raise the flag, and later bits look at the frame that earlier ones have left. No
point is visited twice, so the loops come to the same as laying one stencil on the
frame: the pixels under it are inverted, and the flag is raised if one of them was lit.
-/
namespace HexConsole

namespace Stencil

theorem disjoint_ofList_cons {x y : Int} {points : List (Int × Int)} (fresh : (x, y) ∉ points) :
    (point x y).Disjoint (ofList points) := by
  intro u v at_point
  simp only [point, decide_eq_true_eq] at at_point
  simp [ofList, at_point.1, at_point.2, fresh]

theorem union_ofList_cons (x y : Int) (points : List (Int × Int)) :
    (point x y).union (ofList points) = ofList ((x, y) :: points) := by
  funext u v
  simp [point, union, ofList, Prod.ext_iff, Bool.decide_or]

end Stencil

theorem nodup_rowPoints (x y : Int) (bits : Byte) : (rowPoints x y bits).Nodup := by
  refine List.Pairwise.map _ ?_ (List.nodup_range.filter _)
  intro a b different same
  simp only [Prod.mk.injEq, Int.add_right_inj, Int.natCast_inj, and_true] at same
  exact different same

/-- A row's points are its columns whose bit is set. The leftmost column has the most
significant bit. -/
theorem mem_rowPoints {x y u v : Int} {bits : Byte} :
    (u, v) ∈ rowPoints x y bits ↔
      v = y ∧ 0 ≤ u - x ∧ u - x < 8 ∧ bits.getLsbD (7 - (u - x)).toNat = true := by
  simp only [rowPoints, List.mem_map, List.mem_filter, List.mem_range, Prod.mk.injEq]
  constructor
  · rintro ⟨column, ⟨narrow, set⟩, rfl, rfl⟩
    have place : (7 - (x + (column : Int) - x)).toNat = 8 - 1 - column := by omega
    refine ⟨rfl, by omega, by omega, ?_⟩
    rw [place]
    simpa [BitVec.getMsbD, narrow] using set
  · rintro ⟨rfl, low, high, set⟩
    refine ⟨(u - x).toNat, ⟨by omega, ?_⟩, by omega, rfl⟩
    have place : (7 - (u - x)).toNat = 8 - 1 - (u - x).toNat := by omega
    rw [place] at set
    simp [BitVec.getMsbD, set, show (u - x).toNat < 8 by omega]

namespace Machine

variable {m : Machine}

/-- The set bits of a sprite that is read from an address on, with its top left corner
at `(x, y)`. -/
def sprite (m : Machine) (x y address : Int) (height : Nat) : Stencil := fun u v =>
  decide (0 ≤ u - x ∧ u - x < 8 ∧ 0 ≤ v - y ∧ v - y < height) &&
    (m.byteAt (address + (v - y))).getLsbD (7 - (u - x)).toNat

/-- The machine with a stencil laid on its frame and the flag raised on a collision. -/
def struck (m : Machine) (p : Stencil) : Machine :=
  if m.frame.meets p then { m with frame := m.frame.inverted p }.setReg 15 1
  else { m with frame := m.frame.inverted p }

theorem struck_frame (m : Machine) (p : Stencil) : (m.struck p).frame = m.frame.inverted p := by
  unfold struck
  split_ifs <;> rfl

theorem struck_registers_size (m : Machine) (p : Stencil) :
    (m.struck p).registers.size = m.registers.size := by
  unfold struck
  split_ifs <;> simp

theorem struck_memory (m : Machine) (p : Stencil) : (m.struck p).memory = m.memory := by
  unfold struck
  split_ifs <;> rfl

/-- Raising the flag twice is raising it once. -/
theorem struck_struck {p q : Stencil} (apart : p.Disjoint q) (m : Machine) :
    (m.struck p).struck q = m.struck (p.union q) := by
  have after_frame := struck_frame m p
  unfold struck
  rw [Frame.meets_union, ← Frame.inverted_inverted apart]
  cases first : m.frame.meets p <;> cases second : m.frame.meets q <;>
    simp [Frame.meets_inverted apart, second, setReg, Array.setIfInBounds_setIfInBounds]

theorem struck_of_clear (m : Machine) {p : Stencil}
    (clear : ∀ k : Fin ((64 : Int) * 32).toNat, Frame.under p k = false) : m.struck p = m := by
  simp [struck, Frame.meets_of_clear m.frame clear, Frame.inverted_of_clear m.frame clear]

namespace Step

theorem run_strike (h : m.registers.size = 16) (x y : Int) :
    (strike x y).run m = .ok () (m.struck (Stencil.point x y)) := by
  cases on : m.frame.inBounds x y with
  | false => simp [strike, on, struck_of_clear m (Frame.point_clear (by decide) on)]
  | true =>
    cases lit : m.frame.shows x y <;>
      simp [strike, on, run_invert on, lit, struck, Frame.meets_point m.frame on, h]

theorem run_strikeAll (h : m.registers.size = 16) {points : List (Int × Int)}
    (nodup : points.Nodup) :
    (strikeAll points).run m = .ok () (m.struck (Stencil.ofList points)) := by
  induction points generalizing m with
  | nil =>
    rw [struck_of_clear m fun k => by simp [Frame.under, Stencil.ofList]]
    rfl
  | cons p rest ih =>
    obtain ⟨x, y⟩ := p
    obtain ⟨fresh, nodup⟩ := List.nodup_cons.mp nodup
    have size : (m.struck (Stencil.point x y)).registers.size = 16 := by
      rw [struck_registers_size, h]
    rw [strikeAll, run_bind, run_strike h]
    simp only
    rw [ih size nodup, struck_struck (Stencil.disjoint_ofList_cons fresh),
      Stencil.union_ofList_cons]

end Step

theorem sprite_struck (m : Machine) (p : Stencil) : (m.struck p).sprite = m.sprite := by
  funext x y address height u v
  simp only [sprite, byteAt, struck_memory]

theorem disjoint_first_row (m : Machine) (x y address : Int) (bits : Byte) (rows : Nat) :
    (Stencil.ofList (rowPoints x y bits)).Disjoint (m.sprite x (y + 1) address rows) := by
  intro u v at_row
  simp only [Stencil.ofList, mem_rowPoints, decide_eq_true_eq] at at_row
  simp only [sprite, Bool.and_eq_false_iff, decide_eq_false_iff_not]
  exact .inl (by omega)

/-- The rows below the first one of a sprite are a sprite of their own. -/
theorem sprite_succ (m : Machine) (x y address : Int) (rows : Nat) :
    (Stencil.ofList (rowPoints x y (m.byteAt address))).union
      (m.sprite x (y + 1) (address + 1) rows) = m.sprite x y address (rows + 1) := by
  funext u v
  rw [Bool.eq_iff_iff]
  simp only [Stencil.union, Stencil.ofList, sprite, Bool.or_eq_true, Bool.and_eq_true,
    decide_eq_true_eq, mem_rowPoints]
  by_cases first : v = y
  · subst first
    rw [show address + (v - v) = address by omega]
    constructor
    · rintro (⟨-, low, high, set⟩ | ⟨bounds, -⟩)
      · exact ⟨by omega, set⟩
      · omega
    · rintro ⟨⟨low, high, -⟩, set⟩
      exact .inl ⟨rfl, low, high, set⟩
  · rw [show address + 1 + (v - (y + 1)) = address + (v - y) by omega]
    constructor
    · rintro (⟨top, -⟩ | ⟨bounds, set⟩)
      · exact absurd top first
      · exact ⟨by omega, set⟩
    · rintro ⟨bounds, set⟩
      exact .inr ⟨by omega, set⟩

theorem sprite_zero_clear (m : Machine) (x y address : Int)
    (k : Fin ((64 : Int) * 32).toNat) : Frame.under (m.sprite x y address 0) k = false := by
  simp only [Frame.under, sprite, Bool.and_eq_false_iff, decide_eq_false_iff_not]
  omega

namespace Step

theorem run_drawRows (hm : m.memory.size = memorySize) (hr : m.registers.size = 16)
    {address : Int} {rows : Nat} (x y : Int) (low : 0 ≤ address)
    (high : rows = 0 ∨ address + rows ≤ memorySize) :
    (drawRows x y address rows).run m = .ok () (m.struck (m.sprite x y address rows)) := by
  induction rows generalizing m y address with
  | zero =>
    rw [struck_of_clear m (sprite_zero_clear m x y address)]
    rfl
  | succ rows ih =>
    have inside : address < m.memory.size := by rw [hm]; omega
    rw [drawRows, run_bind, run_peek low inside]
    simp only
    rw [run_bind, run_strikeAll hr (nodup_rowPoints _ _ _)]
    simp only
    rw [ih (by rw [struck_memory, hm]) (by rw [struck_registers_size, hr]) (y + 1) (by omega)
      (by omega), sprite_struck, struck_struck (disjoint_first_row m _ _ _ _ _), sprite_succ]

end Step

end Machine

end HexConsole
