import HexConsole.Text.Blank
import HexConsole.Text.DecimalDigit

/-!
# Reading decimal integers

A number may stand between blanks and carry one sign. Its digits may belong to
any script and may be grouped by single underscores, each between two digits.
More than 4300 digits are refused, leading zeros included.
-/
namespace HexConsole.Integer

def mostDigits : Nat := 4300

/-- Digits, with at most one underscore between two of them. -/
def isGrouped : List Char → Bool
  | [] => false
  | [c] => isDecimalDigit c
  | c :: '_' :: rest => isDecimalDigit c && isGrouped rest
  | c :: rest => isDecimalDigit c && isGrouped rest

/-- The value of a list of digits, most significant first. -/
def value (digits : List Nat) : Nat := digits.foldl (fun n d => 10 * n + d) 0

def readUnsigned (s : List Char) : Option Nat :=
  let digits := s.filterMap digitValue?
  if isGrouped s && digits.length ≤ mostDigits then some (value digits) else none

def readSigned : List Char → Option Int
  | '-' :: s => (readUnsigned s).map fun n => -(n : Int)
  | '+' :: s => (readUnsigned s).map Int.ofNat
  | s => (readUnsigned s).map Int.ofNat

/-- The text without the blanks at its two ends. -/
def trim (s : List Char) : List Char :=
  ((s.dropWhile isBlank).reverse.dropWhile isBlank).reverse

def read (s : String) : Option Int := readSigned (trim s.toList)

/-- Whether a word is written like a negative number, with or without a decimal
point. A line break may end it. -/
def looksNegative (s : List Char) : Bool :=
  match s with
  | '-' :: body =>
    let body := if body.getLast? = some '\n' then body.dropLast else body
    match body.dropWhile isDecimalDigit with
    | [] => !body.isEmpty
    | '.' :: fraction => !fraction.isEmpty && fraction.all isDecimalDigit
    | _ => false
  | _ => false

end HexConsole.Integer
