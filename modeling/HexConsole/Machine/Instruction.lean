import HexConsole.Bits
import HexConsole.Machine

/-!
# Instructions

An operand is read as four nibbles: a family, the registers x and y, and a last
nibble. The nibbles are read with masks, so an operand may be negative or wider
than they are; only in the family 0 the operand is looked up as a whole.
-/
namespace HexConsole

namespace Operand

def family (operand : Int) : Fin 16 := Bits.field operand 0xF000 12

def x (operand : Int) : Register := Bits.field operand 0x0F00 8

def y (operand : Int) : Register := Bits.field operand 0x00F0 4

def nibble (operand : Int) : Fin 16 := Bits.field operand 0x000F 0

def constant (operand : Int) : Fin 256 := Bits.field operand 0x00FF 0

def address (operand : Int) : Fin 4096 := Bits.field operand 0x0FFF 0

end Operand

/-- What an instruction of family 8 does with its two registers. -/
inductive Arithmetic where
  | copy
  | or
  | and
  | xor
  | add
  | subtract
  | shiftRight
  | subtractFrom
  | shiftLeft
  deriving DecidableEq, Repr

inductive Instruction where
  | clearScreen
  | leave
  | jump (target : Fin 4096)
  | call (target : Fin 4096)
  | skipIfEquals (x : Register) (constant : Fin 256)
  | skipUnlessEquals (x : Register) (constant : Fin 256)
  | skipIfSame (x y : Register)
  | skipUnlessSame (x y : Register)
  | setRegister (x : Register) (constant : Fin 256)
  | addConstant (x : Register) (constant : Fin 256)
  | compute (how : Arithmetic) (x y : Register)
  | setIndex (address : Fin 4096)
  | jumpBeyond (base : Fin 4096)
  | random (x : Register) (mask : Fin 256)
  | draw (x y : Register) (height : Fin 16)
  | skipIfPressed (x : Register)
  | skipUnlessPressed (x : Register)
  | readDelay (x : Register)
  | awaitKey (x : Register)
  | setDelay (x : Register)
  | setSound (x : Register)
  | addIndex (x : Register)
  | pointAtGlyph (x : Register)
  | storeDecimal (x : Register)
  | storeRegisters (last : Register)
  | loadRegisters (last : Register)
  deriving DecidableEq, Repr

namespace Instruction

open Operand

/-- The instruction of family 0 that a whole operand selects. -/
def plain? (operand : Int) : Option Instruction :=
  if operand = 0x00E0 then some .clearScreen
  else if operand = 0x00EE then some .leave
  else none

/-- The arithmetic that a last nibble selects. -/
def arithmetic? : Nat → Option Arithmetic
  | 0x0 => some .copy
  | 0x1 => some .or
  | 0x2 => some .and
  | 0x3 => some .xor
  | 0x4 => some .add
  | 0x5 => some .subtract
  | 0x6 => some .shiftRight
  | 0x7 => some .subtractFrom
  | 0xE => some .shiftLeft
  | _ => none

/-- The instruction of family E that a low byte selects. -/
def keyTest? (x : Register) : Nat → Option Instruction
  | 0x9E => some (.skipIfPressed x)
  | 0xA1 => some (.skipUnlessPressed x)
  | _ => none

/-- The instruction of family F that a low byte selects. -/
def service? (x : Register) : Nat → Option Instruction
  | 0x07 => some (.readDelay x)
  | 0x0A => some (.awaitKey x)
  | 0x15 => some (.setDelay x)
  | 0x18 => some (.setSound x)
  | 0x1E => some (.addIndex x)
  | 0x29 => some (.pointAtGlyph x)
  | 0x33 => some (.storeDecimal x)
  | 0x55 => some (.storeRegisters x)
  | 0x65 => some (.loadRegisters x)
  | _ => none

/-- How each family reads its operands. There is an entry for every first nibble. -/
def families : Vector (Int → Option Instruction) 16 := #v[
  plain?,
  fun o => some (.jump (address o)),
  fun o => some (.call (address o)),
  fun o => some (.skipIfEquals (x o) (constant o)),
  fun o => some (.skipUnlessEquals (x o) (constant o)),
  fun o => if nibble o = 0 then some (.skipIfSame (x o) (y o)) else none,
  fun o => some (.setRegister (x o) (constant o)),
  fun o => some (.addConstant (x o) (constant o)),
  fun o => (arithmetic? (nibble o).val).map fun how => .compute how (x o) (y o),
  fun o => if nibble o = 0 then some (.skipUnlessSame (x o) (y o)) else none,
  fun o => some (.setIndex (address o)),
  fun o => some (.jumpBeyond (address o)),
  fun o => some (.random (x o) (constant o)),
  fun o => some (.draw (x o) (y o) (nibble o)),
  fun o => keyTest? (x o) (constant o).val,
  fun o => service? (x o) (constant o).val]

/-- The instruction of an operand of any width and sign. -/
def decode (operand : Int) : Option Instruction := families[family operand] operand

/-- Whether executing the instruction takes a byte from the random source. -/
def drawsByte : Instruction → Bool
  | random _ _ => true
  | _ => false

end Instruction

end HexConsole
