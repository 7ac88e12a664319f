import HexConsole.Cells
import HexConsole.Text.Hexadecimal

/-!
# Faults and failures

A fault is an instruction, or a cartridge, that the machine cannot honour. The
first four kinds halt the machine. A failure is what a host operation reports:
a fault, or a request that names something the machine does not have.
-/
namespace HexConsole

inductive Fault where
  | unknownInstruction (operand counter : Int)
  | outOfBounds (address operand counter : Int) (target : String)
  | stackOverflow (operand counter : Int)
  | stackUnderflow (operand counter : Int)
  | romTooLarge (size available : Int)
  deriving DecidableEq, Repr

namespace Fault

/-- The complaint about a cartridge, whose sizes are given as text. -/
def sizeComplaint (size available : String) : String :=
  "ROM is " ++ size ++ " bytes, only " ++ available ++ " bytes of program memory available"

/-- The operand and the address that every fault of an instruction ends with. -/
def place (operand counter : Int) : String :=
  Hexadecimal.word operand ++ " at PC " ++ Hexadecimal.word counter

def message : Fault → String
  | unknownInstruction operand counter => "Unknown op-code: " ++ place operand counter
  | outOfBounds address operand counter target =>
    "Out of bounds " ++ target ++ " access at " ++ Hexadecimal.word address ++
      " (op-code: " ++ place operand counter ++ ")"
  | stackOverflow operand counter => "Stack overflow: " ++ place operand counter
  | stackUnderflow operand counter => "Stack underflow: " ++ place operand counter
  | romTooLarge size available => sizeComplaint (toString size) (toString available)

end Fault

/-- The tables of a machine that are read and written by number. -/
inductive Table where
  | memory
  | registers
  | keys
  | stack
  | pixels
  deriving DecidableEq, Repr

inductive Access where
  | reading
  | writing
  deriving DecidableEq, Repr

inductive Failure where
  | fault (f : Fault)
  /-- A keypad state with the wrong number of keys. -/
  | keyCount (given : Nat)
  /-- A number that names no cell of a table. -/
  | noCell (table : Table) (access : Access) (index : Int)
  /-- A value that does not fit a memory cell. -/
  | byteValue (value : Int)
  /-- Several values that do not all fit memory cells. -/
  | byteValues (values : List Int)
  deriving DecidableEq, Repr

namespace Failure

def message : Failure → String
  | fault f => f.message
  | keyCount given => "Expected 16 key states, got " ++ toString given
  | noCell .memory _ index => indexComplaint index "bytearray index out of range"
  | noCell .pixels _ index => indexComplaint index "bytearray index out of range"
  | noCell _ .reading index => indexComplaint index "list index out of range"
  | noCell _ .writing index => indexComplaint index "list assignment index out of range"
  | byteValue _ => "byte must be in range(0, 256)"
  | byteValues _ => "bytes must be in range(0, 256)"

end Failure

end HexConsole
