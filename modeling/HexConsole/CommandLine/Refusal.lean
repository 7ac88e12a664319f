import HexConsole.CommandLine.Switch
import HexConsole.Text.Quoted

/-!
# Refused command lines

Why a command line starts nothing. Asking for help is the one reason that is not
a mistake.
-/
namespace HexConsole.CommandLine

inductive Refusal where
  | help
  | ambiguous (word : String) (candidates : List Switch)
  | missingValue (p : Parameter)
  /-- A value for a switch that takes none. -/
  | strayValue (t : Toggle) (value : String)
  | notInteger (p : Parameter) (value : String)
  | missingRom
  | unrecognized (words : List String)
  deriving DecidableEq, Repr

namespace Refusal

def about (switch : Switch) (complaint : String) : String :=
  "argument " ++ switch.title ++ ": " ++ complaint

def message : Refusal → String
  | help => ""
  | ambiguous word candidates =>
    "ambiguous option: " ++ word ++ " could match " ++
      ", ".intercalate (candidates.map Switch.name)
  | missingValue p => about (.parameter p) "expected one argument"
  | strayValue t value => about (.toggle t) ("ignored explicit argument " ++ quoted value)
  | notInteger p value => about (.parameter p) ("invalid int value: " ++ quoted value)
  | missingRom => "the following arguments are required: rom"
  | unrecognized words => "unrecognized arguments: " ++ " ".intercalate words

def exitCode : Refusal → Nat
  | help => 0
  | _ => 2

end Refusal

end HexConsole.CommandLine
