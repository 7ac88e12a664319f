/-!
# Padded hexadecimal

Integers of any width and sign in upper-case base sixteen. Padding never cuts:
a number wider than its column is written whole. Zeros go between the sign and
the digits, blanks go in front of the sign, and the sign counts as a column.
-/
namespace HexConsole.Hexadecimal

def digit (d : Nat) : Char := Char.ofNat (if d < 10 then 48 + d else 55 + d)

/-- The digits of a natural number, most significant first and at least one. -/
def digits (n : Nat) : List Char :=
  if n < 16 then [digit n] else digits (n / 16) ++ [digit (n % 16)]
termination_by n

def sign (n : Int) : List Char := if n < 0 then ['-'] else []

/-- Sign, zeros up to the given width, digits. -/
def zeroPadded (width : Nat) (n : Int) : List Char :=
  let ds := digits n.natAbs
  sign n ++ List.replicate (width - (sign n).length - ds.length) '0' ++ ds

/-- Blanks up to the given width, sign, digits. -/
def blankPadded (width : Nat) (n : Int) : List Char :=
  let cs := sign n ++ digits n.natAbs
  List.replicate (width - cs.length) ' ' ++ cs

/-- The four-column form in which addresses and operands are reported. -/
def word (n : Int) : String := String.ofList (zeroPadded 4 n)

/-- The form of a column in a table of values. -/
def column (width : Nat) (n : Int) : String := String.ofList (blankPadded width n)

end HexConsole.Hexadecimal
