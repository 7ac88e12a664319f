/-!
# Cells named by integers

Tables are read by plain integers, and a negative number counts from the end of
the table. The rule is the same for memory, for keys, for the pixels of a frame
and for each axis of a view, so it is stated once.

Ranges of cells follow the same rule, but none of them is refused: an end outside
the table is moved to the nearer end of the table, and a range that ends before it
starts is empty.
-/
namespace HexConsole

/-- The cell of an `n`-cell row that the integer `i` names: `i` itself from the
front, `i + n` for a negative `i`, and none outside `-n … n - 1`. -/
def position? (n : Nat) (i : Int) : Option (Fin n) :=
  let j := if i < 0 then i + n else i
  if h : 0 ≤ j ∧ j < n then some ⟨j.toNat, by omega⟩ else none

theorem position?_eq_none_iff (n : Nat) (i : Int) :
    position? n i = none ↔ i < -n ∨ n ≤ i := by
  unfold position?
  by_cases hi : i < 0 <;> simp only [hi, if_true, if_false] <;> split <;>
    simp only [reduceCtorEq, true_iff, false_iff] <;> omega

/-- A cell has two names, one from the front and one from the end. -/
theorem position?_eq_some_iff {n : Nat} {i : Int} {k : Fin n} :
    position? n i = some k ↔ i = k ∨ i = k - n := by
  have inside := k.isLt
  unfold position?
  by_cases hi : i < 0 <;> simp only [hi, if_true, if_false] <;> split <;>
    simp only [reduceCtorEq, Option.some_inj, Fin.ext_iff, false_iff] <;> omega

theorem position?_ofNat {n k : Nat} (h : k < n) : position? n k = some ⟨k, h⟩ := by
  have hk : ¬(k : Int) < 0 := by omega
  simp [position?, hk, h]

/-- The gap between cells that the integer `i` names in an `n`-cell row. -/
def gap (n : Nat) (i : Int) : Nat := min (if i < 0 then i + n else i).toNat n

theorem gap_ofNat {n k : Nat} (h : k ≤ n) : gap n k = k := by
  have hk : ¬(k : Int) < 0 := by omega
  simp [gap, hk, h]

/-- The cells of a range. -/
def slice {α : Type} (cells : Array α) (start stop : Int) : Array α :=
  cells.extract (gap cells.size start) (gap cells.size stop)

/-- The table with other cells in place of a range. It grows or shrinks if there
are more or fewer of them. -/
def splice {α : Type} (cells : Array α) (start stop : Int) (new : Array α) : Array α :=
  let low := gap cells.size start
  let high := max low (gap cells.size stop)
  cells.extract 0 low ++ new ++ cells.extract high cells.size

/-- Other cells in place of all. -/
theorem splice_whole {α : Type} (cells new : Array α) : splice cells 0 cells.size new = new := by
  have first : gap cells.size 0 = 0 := gap_ofNat (Nat.zero_le _)
  have last : gap cells.size cells.size = cells.size := gap_ofNat (Nat.le_refl _)
  simp [splice, first, last]

/-- Other cells in place of the first ones. -/
theorem splice_first {α : Type} {cells new : Array α} (fits : new.size ≤ cells.size) :
    splice cells (0 : Nat) (0 + new.size : Nat) new = new ++ cells.extract new.size cells.size := by
  have first : gap cells.size (0 : Nat) = 0 := gap_ofNat (Nat.zero_le _)
  have last : gap cells.size (0 + new.size : Nat) = new.size := by
    rw [Nat.zero_add]
    exact gap_ofNat fits
  simp only [splice, first, last]
  simp

/-- As many cells as the range holds keep the table at its size. -/
theorem size_splice {α : Type} {cells new : Array α} {start : Nat}
    (fits : start + new.size ≤ cells.size) :
    (splice cells start (start + new.size : Nat) new).size = cells.size := by
  simp only [splice, gap_ofNat (n := cells.size) (k := start) (by omega), gap_ofNat fits,
    Array.size_append, Array.size_extract]
  omega

/-- Whether an integer fits a signed 64-bit word, the widest index a table takes. -/
def fitsIndex (i : Int) : Bool :=
  decide (-0x8000000000000000 ≤ i) && decide (i < 0x8000000000000000)

/-- The complaint about a number that is wider than a word. -/
def tooWide : String := "cannot fit 'int' into an index-sized integer"

/-- The complaint about an index, which differs for one wider than a word. -/
def indexComplaint (i : Int) (outside : String) : String :=
  if fitsIndex i then outside else tooWide

end HexConsole
