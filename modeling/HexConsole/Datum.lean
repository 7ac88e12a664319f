import HexConsole.Text.Decimal
import HexConsole.Text.Quoted

/-!
# Data

A datum is anything that a host may hand over where a truth value or a
description is wanted. It counts as true or false, and it has a written form in
which text stands between quotes.
-/
namespace HexConsole

inductive Datum where
  | absent
  | flag (b : Bool)
  | whole (n : Int)
  | decimal (d : Decimal)
  | text (s : String)
  | list (items : List Datum)
  | table (entries : List (String × Datum))
  deriving Inhabited

namespace Datum

/-- A datum counts as true unless it is absent, false, zero or empty. -/
def holds : Datum → Bool
  | absent => false
  | flag b => b
  | whole n => n != 0
  | decimal d => !d.isZero
  | text s => !s.isEmpty
  | list items => !items.isEmpty
  | table entries => !entries.isEmpty

mutual

def written : Datum → String
  | absent => "None"
  | flag true => "True"
  | flag false => "False"
  | whole n => toString n
  | decimal d => d.text
  | text s => quoted s
  | list items => "[" ++ ", ".intercalate (writtenItems items) ++ "]"
  | table entries => "\x7b" ++ ", ".intercalate (writtenEntries entries) ++ "\x7d"

def writtenItems : List Datum → List String
  | [] => []
  | d :: rest => d.written :: writtenItems rest

def writtenEntries : List (String × Datum) → List String
  | [] => []
  | (name, d) :: rest => (quoted name ++ ": " ++ d.written) :: writtenEntries rest

end

/-- The written form, except that a text on its own needs no quotes. -/
def shown : Datum → String
  | text s => s
  | d => d.written

end Datum

end HexConsole
