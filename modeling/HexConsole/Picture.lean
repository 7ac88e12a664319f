import HexConsole.Display

/-!
# Pictures

A picture is a grid of points, each of them dark or bright. It is kept as the
patches that were put on it, so that a large picture costs no more than a small
one. The latest patch at a point is the one that is seen, and a point that no
patch covers is dark.

For printing, a picture is cut into bands of equal rows and each row into pieces
of one colour. Colours change only at the edges of patches.
-/
namespace HexConsole

namespace Patch

/-- Whether a point under some patches, the latest first, is bright. -/
def brightUnder (patches : List Patch) (x y : Int) : Bool :=
  ((patches.find? fun p => p.covers x y).map bright).getD false

end Patch

structure Picture where
  width : Nat
  height : Nat
  /-- The latest first. -/
  patches : List Patch
  deriving DecidableEq, Repr

namespace Picture

def dark (width height : Nat) : Picture := ⟨width, height, []⟩

def put (p : Picture) (patch : Patch) : Picture := { p with patches := patch :: p.patches }

def bright (p : Picture) (x y : Int) : Bool := Patch.brightUnder p.patches x y

/-- Joins equal neighbours and adds their counts. -/
def joined {α : Type} [DecidableEq α] : List (Nat × α) → List (Nat × α)
  | [] => []
  | (n, a) :: rest =>
    match joined rest with
    | (k, b) :: more => if a = b then (n + k, b) :: more else (n, a) :: (k, b) :: more
    | [] => [(n, a)]

/-- The pieces between ascending stops, each by its start and its length. -/
def piecesFrom (start : Nat) : List Nat → List (Nat × Nat)
  | [] => []
  | stop :: rest =>
    if start < stop then (start, stop - start) :: piecesFrom stop rest else piecesFrom start rest

/-- The pieces into which edges cut a line. Edges beyond its ends cut nothing. -/
def pieces (length : Nat) (edges : List Int) : List (Nat × Nat) :=
  let inner : List Int := edges.filter fun e : Int => decide (0 < e) && decide (e < length)
  piecesFrom 0 ((inner.map Int.toNat).mergeSort ++ [length])

/-- The row at `y`, as counted points of one colour. -/
def row (p : Picture) (y : Nat) : List (Nat × Bool) :=
  let here := p.patches.filter fun patch => patch.coversRow y
  let edges := here.flatMap fun patch => [patch.left, patch.left + patch.width]
  joined ((pieces p.width edges).map fun (x, n) => (n, Patch.brightUnder here x y))

/-- All rows, with equal neighbours counted. -/
def rows (p : Picture) : List (Nat × List (Nat × Bool)) :=
  let edges := p.patches.flatMap fun patch => [patch.top, patch.top + patch.height]
  joined ((pieces p.height edges).map fun (y, n) => (n, p.row y))

end Picture

end HexConsole
