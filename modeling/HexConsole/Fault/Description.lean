import HexConsole.Datum
import HexConsole.Fault

/-!
# Faults described by data

A host may describe a fault by its kind and a list of data. Most kinds have named
parameters, and the data must match them in number; where a message shows a
parameter in hexadecimal it must be a whole number, and a truth value counts as
one. Main statement: a description by whole numbers has the message of the fault.
-/
namespace HexConsole

inductive FaultKind where
  /-- No particular kind: any data will do. -/
  | plain
  | unknownInstruction
  | outOfBounds
  | stackOverflow
  | stackUnderflow
  | romTooLarge
  deriving DecidableEq, Repr

namespace FaultKind

/-- The name under which a kind is reported. -/
def title : FaultKind → String
  | plain => "Chip8Exception"
  | unknownInstruction => "UnknownOpCodeException"
  | outOfBounds => "OutOfBoundsException"
  | stackOverflow => "StackOverflowException"
  | stackUnderflow => "StackUnderflowException"
  | romTooLarge => "RomTooLargeException"

/-- The parameters that must be given. -/
def required : FaultKind → List String
  | plain => []
  | unknownInstruction | stackOverflow | stackUnderflow => ["op_code", "program_counter"]
  | outOfBounds => ["address", "op_code", "program_counter"]
  | romTooLarge => ["rom_size", "available"]

/-- What is out of bounds unless something else is named. -/
def usualTarget : Datum := .text "memory"

/-- The parameters that may be left out, with what they then are. -/
def optional : FaultKind → List (String × Datum)
  | outOfBounds => [("target", usualTarget)]
  | _ => []

end FaultKind

def Fault.kind : Fault → FaultKind
  | unknownInstruction .. => .unknownInstruction
  | outOfBounds .. => .outOfBounds
  | stackOverflow .. => .stackOverflow
  | stackUnderflow .. => .stackUnderflow
  | romTooLarge .. => .romTooLarge

/-- Why data do not describe a fault. -/
inductive Misfit where
  /-- Some parameters, of which there is at least one, were not given. -/
  | tooFew (kind : FaultKind) (missing : List String)
  | tooMany (kind : FaultKind) (given : Nat)
  /-- A datum that has no hexadecimal form. -/
  | notWhole (d : Datum)

namespace Misfit

/-- Quoted names with commas and an "and". -/
def listed (names : List String) : String :=
  let shown := names.map quoted
  match shown.getLast?, shown.dropLast with
  | none, _ => ""
  | some last, [] => last
  | some last, [first] => first ++ " and " ++ last
  | some last, more => ", ".intercalate more ++ ", and " ++ last

/-- How many parameters a kind takes. A fault counts as the first parameter of its
own description. -/
def capacity (kind : FaultKind) : String :=
  let least := kind.required.length + 1
  if kind.optional.isEmpty then toString least
  else "from " ++ toString least ++ " to " ++ toString (least + kind.optional.length)

def message : Misfit → String
  | tooFew kind missing =>
    kind.title ++ ".__init__() missing " ++ toString missing.length ++
      " required positional argument" ++ (if missing.length = 1 then "" else "s") ++ ": " ++
      listed missing
  | tooMany kind given =>
    kind.title ++ ".__init__() takes " ++ capacity kind ++ " positional arguments but " ++
      toString (given + 1) ++ " were given"
  | notWhole (.decimal _) => "Unknown format code 'X' for object of type 'float'"
  | notWhole (.text _) => "Unknown format code 'X' for object of type 'str'"
  | notWhole (.list _) => "unsupported format string passed to list.__format__"
  | notWhole (.table _) => "unsupported format string passed to dict.__format__"
  | notWhole _ => "unsupported format string passed to NoneType.__format__"

/-- What is wrong with a number of data that a kind does not take. -/
def ofCount (kind : FaultKind) (given : Nat) : Misfit :=
  if given < kind.required.length then tooFew kind (kind.required.drop given)
  else tooMany kind given

end Misfit

/-- The whole number that a datum stands for. -/
def Datum.number : Datum → Except Misfit Int
  | whole n => .ok n
  | flag b => .ok b.toInt
  | d => .error (.notWhole d)

structure Description where
  kind : FaultKind
  details : List Datum

namespace Description

/-- One detail stands for itself and several are put in parentheses. -/
def plainMessage : List Datum → String
  | [] => ""
  | [d] => d.shown
  | ds => "(" ++ ", ".intercalate (ds.map Datum.written) ++ ")"

def outOfBounds (address operand counter target : Datum) : Except Misfit String := do
  return (Fault.outOfBounds (← address.number) (← operand.number) (← counter.number)
    target.shown).message

/-- The message of the fault. Details are looked at in the order of the message. -/
def message (d : Description) : Except Misfit String := do
  match d.kind, d.details with
  | .plain, details => return plainMessage details
  | .unknownInstruction, [operand, counter] =>
    return (Fault.unknownInstruction (← operand.number) (← counter.number)).message
  | .stackOverflow, [operand, counter] =>
    return (Fault.stackOverflow (← operand.number) (← counter.number)).message
  | .stackUnderflow, [operand, counter] =>
    return (Fault.stackUnderflow (← operand.number) (← counter.number)).message
  | .outOfBounds, [address, operand, counter] =>
    outOfBounds address operand counter FaultKind.usualTarget
  | .outOfBounds, [address, operand, counter, target] =>
    outOfBounds address operand counter target
  | .romTooLarge, [size, available] => return Fault.sizeComplaint size.shown available.shown
  | kind, details => throw (.ofCount kind details.length)

/-- The named parameters of a description that fits its kind. -/
def fields (d : Description) : List (String × Datum) :=
  let optional := d.kind.optional.drop (d.details.length - d.kind.required.length)
  (d.kind.required ++ d.kind.optional.map Prod.fst).zip (d.details ++ optional.map Prod.snd)

end Description

end HexConsole

