import HexConsole.Bits
import HexConsole.Machine.Instruction
import HexConsole.Machine.Step

/-!
# Executing an instruction

Each instruction is a step. A fault is found before anything is changed; a step
that names a cell which does not exist keeps the effects it had before. The counter
has already been advanced past the instruction when it is executed, so a skip adds
one more instruction and a wait takes one back. The byte for a random instruction
is an argument.
-/
namespace HexConsole

/-- The points of one row of a sprite that starts at `(x, y)`, with the most
significant bit on the left. -/
def rowPoints (x y : Int) (bits : Byte) : List (Int × Int) :=
  ((List.range 8).filter bits.getMsbD).map fun (column : Nat) => (x + column, y)

namespace Machine

namespace Step

/-- The state of the key that a register names. -/
def keyOf (x : Register) : Step Bool := do
  let number ← register x
  let m ← get
  if 16 ≤ number then fail (.fault (.outOfBounds number m.operand m.operandAddress "key"))
  key number

/-- A byte result and a flag, written in this order. -/
def conclude (x : Register) (result : Int) (flag : Bool) : Step Unit := do
  setRegister x (result % 256)
  setFlag (if flag then 1 else 0)

/-- The arithmetic of family 8. Sums and differences write the flag after the
result; shifts write the flag first and then shift what the register holds. -/
def compute (x y : Register) : Arithmetic → Step Unit
  | .copy => do setRegister x (← register y)
  | .or => do
    let a ← register x
    setRegister x (Bits.or a (← register y))
  | .and => do
    let a ← register x
    setRegister x (Bits.and a (← register y))
  | .xor => do
    let a ← register x
    setRegister x (Bits.xor a (← register y))
  | .add => do
    let a ← register x
    let b ← register y
    conclude x (a + b) (decide (255 < a + b))
  | .subtract => do
    let a ← register x
    let b ← register y
    conclude x (a - b) (decide (b ≤ a))
  | .subtractFrom => do
    let a ← register x
    let b ← register y
    conclude x (b - a) (decide (a ≤ b))
  | .shiftRight => do
    setFlag ((← register x) % 2)
    setRegister x ((← register x) / 2)
  | .shiftLeft => do
    setFlag ((← register x) / 128 % 2)
    setRegister x ((← register x) * 2 % 256)

/-- Returns to where the last call came from. The depth falls first. -/
def leave : Step Unit := do
  let m ← get
  if m.depth = 0 then fail (.fault (.stackUnderflow m.operand m.operandAddress))
  set { m with depth := m.depth - 1 }
  jump (← returnAddress (m.depth - 1))

def call (target : Int) : Step Unit := do
  let m ← get
  if m.depth = stackDepth then fail (.fault (.stackOverflow m.operand m.operandAddress))
  setReturnAddress m.depth m.counter
  modify fun m => { m with depth := m.depth + 1 }
  jump target

/-- Inverts a point of a sprite if it lies on the frame, and raises the flag if it
was lit. -/
def strike (x y : Int) : Step Unit := do
  if (← get).frame.inBounds x y then
    if ← invert x y then setFlag 1

def strikeAll : List (Int × Int) → Step Unit
  | [] => pure ()
  | (x, y) :: rest => do
    strike x y
    strikeAll rest

/-- Draws rows of a sprite from a place downwards, each as soon as it is read. -/
def drawRows (x y address : Int) : Nat → Step Unit
  | 0 => pure ()
  | rows + 1 => do
    strikeAll (rowPoints x y (← peek address))
    drawRows x (y + 1) (address + 1) rows

/-- Draws a sprite. The flag is cleared before the rows are read. If a row cannot
be read, the rows above it are drawn. -/
def draw (x y : Register) (height : Nat) : Step Unit := do
  let left ← register x
  let top ← register y
  let address := (← get).index
  requireRange address height
  setFlag 0
  drawRows left top address height
  modify fun m => { m with redraw := true }

/-- Stores the lowest pressed key, or waits by stepping back. -/
def awaitKey (x : Register) : Step Unit := do
  match (← get).keys.first? with
  | some key => setRegister x key
  | none => skip (-2)

def storeDecimal (x : Register) : Step Unit := do
  let address := (← get).index
  requireRange address 3
  let value ← register x
  writeBytes address [value / 100, value / 10 % 10, value % 10]

def storeRegisters (last : Register) : Step Unit := do
  let address := (← get).index
  requireRange address (last.val + 1)
  saveRegisters address (last.val + 1)

def loadRegisters (last : Register) : Step Unit := do
  let address := (← get).index
  requireRange address (last.val + 1)
  restoreRegisters address (last.val + 1)

/-- An instruction, given the next random byte. -/
def execute (byte : Int) : Instruction → Step Unit
  | .clearScreen => modify fun m => { m with frame := m.frame.clear, redraw := true }
  | .leave => leave
  | .jump target => jump target.val
  | .call target => call target.val
  | .skipIfEquals x constant => do skipIf ((← register x) == constant.val)
  | .skipUnlessEquals x constant => do skipIf ((← register x) != constant.val)
  | .skipIfSame x y => do
    let a ← register x
    skipIf (a == (← register y))
  | .skipUnlessSame x y => do
    let a ← register x
    skipIf (a != (← register y))
  | .setRegister x constant => setRegister x constant.val
  | .addConstant x constant => do setRegister x (((← register x) + constant.val) % 256)
  | .compute how x y => compute x y how
  | .setIndex address => setIndex address.val
  | .jumpBeyond base => do jump ((← register 0) + base.val)
  | .random x mask => setRegister x (Bits.and mask.val byte)
  | .draw x y height => draw x y height.val
  | .skipIfPressed x => do skipIf (← keyOf x)
  | .skipUnlessPressed x => do skipIf !(← keyOf x)
  | .readDelay x => do setRegister x (← get).delay
  | .awaitKey x => awaitKey x
  | .setDelay x => do
    let value ← register x
    modify fun m => { m with delay := value }
  | .setSound x => do
    let value ← register x
    modify fun m => { m with sound := value }
  | .addIndex x => do
    let value ← register x
    setIndex (((← get).index + value) % 65536)
  | .pointAtGlyph x => do setIndex ((← register x) * glyphSize)
  | .storeDecimal x => storeDecimal x
  | .storeRegisters last => storeRegisters last
  | .loadRegisters last => loadRegisters last

/-- Decodes and executes an operand. The machine notes the operand even when it
refuses it. -/
def dispatch (byte operand : Int) : Step Unit := do
  modify fun m => { m with operand }
  match Instruction.decode operand with
  | none => fail (.fault (.unknownInstruction operand (← get).operandAddress))
  | some i => execute byte i

end Step

def dispatch (m : Machine) (byte operand : Int) : Machine × Option Failure :=
  m.after (Step.dispatch byte operand)

end Machine

end HexConsole
