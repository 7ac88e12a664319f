import HexConsole.Machine

/-!
# The log

What happens is noted as it happens. A note makes one line of the log, with a level
and the part that speaks: the machine or the program around it. A threshold says
from which level on something is told at all.
-/
namespace HexConsole

inductive Level where
  | debug
  | info
  | error
  deriving DecidableEq, Repr

inductive Speaker where
  | machine
  | program
  deriving DecidableEq, Repr

structure Record where
  level : Level
  speaker : Speaker
  text : String
  deriving DecidableEq, Repr

/-- Something that happened. -/
inductive Note where
  | initialized
  | loaded (size : Nat)
  | executing (address word : Int)
  | beep
  /-- Made by the tone listener. -/
  | toneHeard
  | halted (f : Fault)
  deriving DecidableEq, Repr

namespace Level

def name : Level → String
  | debug => "DEBUG"
  | info => "INFO"
  | error => "ERROR"

def severity : Level → Nat
  | debug => 10
  | info => 20
  | error => 40

/-- Whether a level is told of at a threshold. -/
def admits (threshold level : Level) : Bool := decide (threshold.severity ≤ level.severity)

/-- The threshold of a program, which the user may ask to tell more. -/
def ofVerbose (verbose : Bool) : Level := if verbose then debug else info

@[simp] theorem debug_admits (level : Level) : debug.admits level = true := by
  cases level <;> rfl

@[simp] theorem admits_error (threshold : Level) : threshold.admits error = true := by
  cases threshold <;> rfl

end Level

namespace Speaker

/-- The name a speaker goes by. The program goes by the name it was started
under. -/
def name (programName : String) : Speaker → String
  | machine => "chip8.cpu"
  | program => programName

end Speaker

namespace Record

def line (programName : String) (r : Record) : String :=
  "[" ++ r.level.name ++ "] " ++ r.speaker.name programName ++ ": " ++ r.text

def isDebug (r : Record) : Bool := r.level == .debug

end Record

/-- The record of a note. -/
def Note.record : Note → Record
  | initialized => ⟨.debug, .machine, "CPU initialized"⟩
  | loaded size =>
    ⟨.info, .machine, "Loaded " ++ toString size ++ " byte ROM at " ++
      Hexadecimal.word programStart⟩
  | executing address word =>
    ⟨.debug, .machine, "PC: " ++ Hexadecimal.word address ++ "  OP: " ++
      Hexadecimal.word word⟩
  | beep => ⟨.debug, .machine, "BEEP!"⟩
  | toneHeard => ⟨.debug, .program, "Tone on"⟩
  | halted f => ⟨.error, .machine, "CPU halted: " ++ f.message⟩

/-- The text of a log, every line ended by a line break. -/
def logText (programName : String) (records : List Record) : String :=
  String.join (records.map fun r => r.line programName ++ "\n")

end HexConsole
