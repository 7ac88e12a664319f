import HexConsole.Random.Source

/-!
# Seeded random bytes

The Mersenne twister with 624 words of 32 bits, seeded with the words of an
integer's absolute value. A byte is the top nine bits of an output, drawn again
while it does not fit eight, but not more than 4096 times.
-/
namespace HexConsole

structure Twister where
  words : Vector UInt32 624
  /-- The number of words already given out. -/
  used : Nat

namespace Twister

abbrev Words := Vector UInt32 624

/-- The word at an index taken round the table. -/
def word (w : Words) (i : Nat) : UInt32 := w[Fin.ofNat 624 i]

def put (w : Words) (i : Nat) (x : UInt32) : Words := w.set (Fin.ofNat 624 i).val x

/-- The words of a natural number, least significant first and at least one. -/
def keyOf (n : Nat) : List UInt32 :=
  if n < 0x100000000 then [n.toUInt32] else n.toUInt32 :: keyOf (n / 0x100000000)
termination_by n

def fold (x : UInt32) : UInt32 := x ^^^ (x >>> 30)

/-- The table spread from one word. -/
def spread (seed : UInt32) : Words :=
  (List.range 623).foldl (fun w i =>
    put w (i + 1) (1812433253 * fold (word w i) + (i + 1).toUInt32))
    (Vector.replicate 624 seed)

/-- After the last word of the table the first takes its value and is skipped. -/
def wrap (w : Words) (i : Nat) : Words × Nat :=
  if 624 ≤ i + 1 then (put w 0 (word w 623), 1) else (w, i + 1)

def mixKey (key : Array UInt32) (s : Words × Nat) (j : Nat) : Words × Nat :=
  let (w, i) := s
  let j := j % key.size
  let x := (word w i ^^^ (fold (word w (i - 1)) * 1664525)) + key[j]?.getD 0 + j.toUInt32
  wrap (put w i x) i

def mixIndex (s : Words × Nat) : Words × Nat :=
  let (w, i) := s
  wrap (put w i ((word w i ^^^ (fold (word w (i - 1)) * 1566083941)) - i.toUInt32)) i

def ofKey (key : Array UInt32) : Twister :=
  let rounds := List.range (max 624 key.size)
  let s := rounds.foldl (mixKey key) (spread 19650218, 1)
  let s := (List.range 623).foldl (fun s _ => mixIndex s) s
  { words := put s.1 0 0x80000000, used := 624 }

/-- The generator of a seed, whose sign does not matter. -/
def ofSeed (seed : Int) : Twister := ofKey (keyOf seed.natAbs).toArray

/-- The next table of words, each computed from the ones before it. -/
def renew (w : Words) : Words :=
  (List.range 624).foldl (fun w i =>
    let y := (word w i &&& 0x80000000) ||| (word w (i + 1) &&& 0x7FFFFFFF)
    let odd : UInt32 := if y &&& 1 = 0 then 0 else 0x9908B0DF
    put w i (word w (i + 397) ^^^ (y >>> 1) ^^^ odd)) w

def temper (x : UInt32) : UInt32 :=
  let x := x ^^^ (x >>> 11)
  let x := x ^^^ ((x <<< 7) &&& 0x9D2C5680)
  let x := x ^^^ ((x <<< 15) &&& 0xEFC60000)
  x ^^^ (x >>> 18)

def next (g : Twister) : UInt32 × Twister :=
  let g := if g.used < 624 then g else ⟨renew g.words, 0⟩
  (temper (word g.words g.used), { g with used := g.used + 1 })

/-- A byte, looked for in a number of outputs. Half of all outputs give one. If none of
these does, the search is given up and the byte is 0. -/
def byteWithin : Nat → Twister → Int × Twister
  | 0, g => (0, g)
  | tries + 1, g =>
    let (x, g) := g.next
    let top := x >>> 23
    if top < 256 then (top.toNat, g) else byteWithin tries g

/-- The number of outputs in which a byte is looked for. -/
def patience : Nat := 4096

/-- Bytes of a twister, as long as no 4096 outputs in a row fail to give one: a source that
looked on for ever would not be a function. -/
instance : RandomSource Twister where
  draw := byteWithin patience

end Twister

end HexConsole
