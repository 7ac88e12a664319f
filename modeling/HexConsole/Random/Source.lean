/-!
# Random sources

A source gives integers one at a time. A machine takes one for each random
instruction that it executes and none otherwise.
-/
namespace HexConsole

class RandomSource (σ : Type) where
  draw : σ → Int × σ

namespace RandomSource

/-- The source after a number of draws. -/
def after {σ : Type} [RandomSource σ] (source : σ) : Nat → σ
  | 0 => source
  | n + 1 => (draw (after source n)).2

/-- The integers that a source gives, counted from zero. -/
def stream {σ : Type} [RandomSource σ] (source : σ) (n : Nat) : Int :=
  (draw (after source n)).1

end RandomSource

/-- A source that reads a fixed sequence. -/
structure Tape where
  values : Nat → Int
  position : Nat

instance : RandomSource Tape where
  draw t := (t.values t.position, { t with position := t.position + 1 })

/-- The tape that repeats a list for ever; an empty list gives zeros. -/
def Tape.repeating (values : Array Int) : Tape where
  values n := values[n % values.size]?.getD 0
  position := 0

end HexConsole
