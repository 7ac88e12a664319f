/-!
# Decimal numbers as text

A decimal number keeps its digits but for zeros at the end, has at least one place
after the point, and turns to scientific notation where the point lies more than
three places left of the digits or more than sixteen right of their start. Zero
has a sign like any other number, and there are two infinities.
-/
namespace HexConsole

inductive Decimal where
  /-- The number `digits * 10 ^ exponent`, or its opposite. -/
  | finite (negative : Bool) (digits : Nat) (exponent : Int)
  | infinite (negative : Bool)
  /-- Not a number. -/
  | undefined
  deriving DecidableEq, Repr

namespace Decimal

def isZero : Decimal → Bool
  | finite _ digits _ => digits == 0
  | _ => false

/-- A number as `d * 10 ^ e` where `d` does not end in a zero. -/
def trimmed : Nat → Nat → Int → Nat × Int
  | 0, d, e => (d, e)
  | fuel + 1, d, e => if d % 10 = 0 then trimmed fuel (d / 10) (e + 1) else (d, e)

def zeros (n : Nat) : List Char := List.replicate n '0'

/-- Digits with a point after the first `point` of them, which may be before the
first or after the last. -/
def positional (digits : List Char) (point : Int) : List Char :=
  if point ≤ 0 then '0' :: '.' :: zeros (-point).toNat ++ digits
  else if digits.length ≤ point then digits ++ zeros (point.toNat - digits.length) ++ ['.', '0']
  else digits.take point.toNat ++ '.' :: digits.drop point.toNat

/-- One digit, the others after a point, and an exponent of two digits or more. -/
def scientific (digits : List Char) (point : Int) : List Char :=
  let exponent := (toString (point - 1).natAbs).toList
  digits.take 1 ++ (if digits.length = 1 then [] else '.' :: digits.drop 1) ++
    ['e', if point - 1 < 0 then '-' else '+'] ++ zeros (2 - exponent.length) ++ exponent

/-- The text of `digits * 10 ^ exponent`. -/
def unsigned (digits : Nat) (exponent : Int) : List Char :=
  if digits = 0 then ['0', '.', '0']
  else
    let (d, e) := trimmed digits digits exponent
    let shown := (toString d).toList
    let point := shown.length + e
    if -4 < point ∧ point ≤ 16 then positional shown point else scientific shown point

def sign (negative : Bool) : String := if negative then "-" else ""

def text : Decimal → String
  | finite negative digits exponent => sign negative ++ String.ofList (unsigned digits exponent)
  | infinite negative => sign negative ++ "inf"
  | undefined => "nan"

end Decimal

end HexConsole
