import HexConsole.Machine

/-!
# The register report

Twenty lines of text: the last instruction, the registers, the index, the depth
of the stack and the timers, each in a column padded with blanks. The values
printed are gathered in a record of their own, since the text depends on nothing
else and takes any integers.
-/
namespace HexConsole

/-- The values a report shows. -/
structure Readings where
  operandAddress : Int
  operand : Int
  registers : Vector Int 16
  index : Int
  depth : Int
  delay : Int
  sound : Int
  deriving DecidableEq

namespace Readings

def registerLine (name : Nat) (value : Int) : String :=
  "V" ++ Hexadecimal.column 1 name ++ ": " ++ Hexadecimal.column 2 value

def lines (r : Readings) : List String :=
  ["PC: " ++ Hexadecimal.column 4 r.operandAddress ++ "  OP: " ++ Hexadecimal.column 4 r.operand] ++
  r.registers.toList.zipIdx.map (fun (value, name) => registerLine name value) ++
  ["I: " ++ Hexadecimal.column 4 r.index,
   "SP: " ++ Hexadecimal.column 1 r.depth,
   "DT: " ++ Hexadecimal.column 2 r.delay ++ "  ST: " ++ Hexadecimal.column 2 r.sound]

/-- The lines, each ended by a line break. -/
def text (r : Readings) : String := String.join (r.lines.map (· ++ "\n"))

end Readings

namespace Machine

/-- The values to report, if all sixteen registers are there. -/
def readings (m : Machine) : Except Failure Readings :=
  if h : 16 ≤ m.registers.size then
    .ok {
      operandAddress := m.operandAddress
      operand := m.operand
      registers := ⟨m.registers.take 16, by simp [h]⟩
      index := m.index
      depth := m.depth
      delay := m.delay
      sound := m.sound }
  else .error (.noCell .registers .reading m.registers.size)

def report (m : Machine) : Except Failure String := m.readings.map Readings.text

end Machine

end HexConsole
