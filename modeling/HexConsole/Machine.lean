import HexConsole.Fault
import HexConsole.Frame
import HexConsole.Keypad

/-!
# The machine

Everything a CHIP-8 machine remembers. Registers, counters and timers are plain
integers; that they stay within their nominal ranges is a property of the
instructions and not of the type. Memory cells are bytes and pixels are bits.

Memory has 4096 cells and there are sixteen registers, unless a host has put the
index register below zero: a block of registers is then copied to or from a range
that may be shorter than the block, and the table written to changes its size.
-/
namespace HexConsole

abbrev Byte := BitVec 8

/-- One of the sixteen registers; the last doubles as carry, borrow and
collision flag. -/
abbrev Register := Fin 16

def memorySize : Nat := 4096

/-- Where a program is loaded and started. -/
def programStart : Nat := 0x200

def programSpace : Nat := memorySize - programStart

def stackDepth : Nat := 16

def glyphSize : Nat := 5

/-- The shapes of the sixteen hexadecimal digits, five rows each. -/
def glyphs : Array Byte := #[
  0xF0, 0x90, 0x90, 0x90, 0xF0,
  0x20, 0x60, 0x20, 0x20, 0x70,
  0xF0, 0x10, 0xF0, 0x80, 0xF0,
  0xF0, 0x10, 0xF0, 0x10, 0xF0,
  0x90, 0x90, 0xF0, 0x10, 0x10,
  0xF0, 0x80, 0xF0, 0x10, 0xF0,
  0xF0, 0x80, 0xF0, 0x90, 0xF0,
  0xF0, 0x10, 0x20, 0x40, 0x40,
  0xF0, 0x90, 0xF0, 0x90, 0xF0,
  0xF0, 0x90, 0xF0, 0x10, 0xF0,
  0xF0, 0x90, 0xF0, 0x90, 0x90,
  0xE0, 0x90, 0xE0, 0x90, 0xE0,
  0xF0, 0x80, 0x80, 0x80, 0xF0,
  0xE0, 0x90, 0x90, 0x90, 0xE0,
  0xF0, 0x80, 0xF0, 0x80, 0xF0,
  0xF0, 0x80, 0xF0, 0x80, 0x80]

structure Machine where
  memory : Array Byte
  registers : Array Int
  index : Int
  /-- The address of the next instruction. -/
  counter : Int
  /-- Return addresses. Entries from `depth` on are stale. -/
  stack : Vector Int 16
  depth : Int
  delay : Int
  sound : Int
  keys : Keypad
  frame : Frame 64 32
  /-- Raised by drawing and lowered by the host. -/
  redraw : Bool
  /-- Whether the last timer tick found the sound timer running. -/
  tone : Bool
  /-- The last operand given to dispatch, and the address reported with it. -/
  operand : Int
  operandAddress : Int
  fault : Option Fault
  deriving DecidableEq

namespace Machine

/-- A machine before its first reset: everything is zero. -/
def poweredOff : Machine where
  memory := Array.replicate memorySize 0
  registers := Array.replicate 16 0
  index := 0
  counter := 0
  stack := Vector.replicate 16 0
  depth := 0
  delay := 0
  sound := 0
  keys := Keypad.released
  frame := Frame.blank
  redraw := false
  tone := false
  operand := 0
  operandAddress := 0
  fault := none

/-- Where the glyphs are kept. -/
def glyphStart : Nat := 0

/-- Blanks out every part of the machine, installs the glyphs and points the counter
at the program. The memory and the frame are written over in place. -/
def reset (m : Machine) : Machine :=
  let blanked := splice m.memory 0 m.memory.size (Array.replicate memorySize 0)
  { m with
    memory := splice blanked glyphStart (glyphStart + glyphs.size : Nat) glyphs
    registers := Array.replicate 16 0
    counter := programStart
    depth := 0
    index := 0
    stack := Vector.replicate 16 0
    keys := Keypad.released
    delay := 0
    sound := 0
    frame := m.frame.clear
    redraw := false
    tone := false
    fault := none
    operand := 0
    operandAddress := programStart }

/-- Memory after a reset: the glyphs, then zeros. -/
def glyphMemory : Array Byte := glyphs ++ Array.replicate (memorySize - glyphs.size) 0

theorem size_glyphMemory : glyphMemory.size = memorySize := by
  simp [glyphMemory, glyphs, memorySize]

/-- A machine after a reset. -/
def initial : Machine :=
  { poweredOff with
    memory := glyphMemory
    counter := programStart
    operandAddress := programStart }

/-- Nothing that a machine held before a reset is left, not even the size of its tables. -/
theorem reset_eq_initial (m : Machine) : m.reset = initial := by
  have whole : splice m.memory 0 m.memory.size (Array.replicate memorySize 0) =
      Array.replicate memorySize 0 := splice_whole _ _
  have font : splice (Array.replicate memorySize (0 : Byte)) glyphStart
      (glyphStart + glyphs.size : Nat) glyphs = glyphMemory := by
    have room : glyphs.size ≤ (Array.replicate memorySize (0 : Byte)).size := by
      rw [Array.size_replicate]
      decide
    rw [glyphStart, splice_first room, Array.extract_replicate, Array.size_replicate, Nat.min_self]
    rfl
  simp only [reset, whole, font, Frame.clear_eq_blank]
  rfl

/-- Why a program of some size is refused. -/
def refusal? (size : Nat) : Option Failure :=
  if programSpace < size then some (.fault (.romTooLarge size programSpace)) else none

/-- Copies a program to the program start. One that does not fit is refused. -/
def load (m : Machine) (rom : List Byte) : Except Failure Machine :=
  match refusal? rom.length with
  | some e => .error e
  | none =>
    .ok { m with memory := splice m.memory programStart (programStart + rom.length) rom.toArray }

def setKeys (m : Machine) (states : List Bool) : Except Failure Machine :=
  if h : states.length = 16 then .ok { m with keys := ⟨states.toArray, by simpa using h⟩ }
  else .error (.keyCount states.length)

/-- Presses or releases one key, given by a number that may count from the end. -/
def setKey (m : Machine) (key : Int) (down : Bool) : Except Failure Machine :=
  match position? 16 key with
  | none => .error (.noCell .keys .writing key)
  | some k => .ok { m with keys := m.keys.set k.val down }

/-- One tick of both timers. The tone sounds while the sound timer runs. -/
def tick (m : Machine) : Machine :=
  { m with
    delay := if m.delay = 0 then 0 else m.delay - 1
    sound := if m.sound = 0 then 0 else m.sound - 1
    tone := m.sound != 0 }

end Machine

end HexConsole
