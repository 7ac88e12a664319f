/-!
# Switches

The switches of the command line, in the order in which messages list them. Each
has a long name and some have a letter. A toggle stands alone; a parameter takes
an amount.
-/
namespace HexConsole.CommandLine

inductive Toggle where
  | help
  | decoupleTimers
  | headless
  | verbose
  deriving DecidableEq, Repr

inductive Parameter where
  | scale
  | delay
  | seed
  | cycles
  deriving DecidableEq, Repr

inductive Switch where
  | toggle (t : Toggle)
  | parameter (p : Parameter)
  deriving DecidableEq, Repr

namespace Switch

def all : List Switch :=
  [.toggle .help, .parameter .scale, .parameter .delay, .parameter .seed,
   .toggle .decoupleTimers, .toggle .headless, .parameter .cycles, .toggle .verbose]

def letter? : Switch → Option Char
  | toggle .help => some 'h'
  | toggle .verbose => some 'v'
  | parameter .scale => some 's'
  | parameter .delay => some 'd'
  | _ => none

def name : Switch → String
  | toggle .help => "--help"
  | toggle .decoupleTimers => "--decouple-timers"
  | toggle .headless => "--headless"
  | toggle .verbose => "--verbose"
  | parameter .scale => "--scale"
  | parameter .delay => "--delay"
  | parameter .seed => "--seed"
  | parameter .cycles => "--cycles"

def ofLetter? (c : Char) : Option Switch := all.find? fun s => s.letter? == some c

def ofName? (text : String) : Option Switch := all.find? fun s => s.name == text

/-- All ways to write the switch, joined by a slash. -/
def title (s : Switch) : String :=
  match s.letter? with
  | some c => String.ofList ['-', c] ++ "/" ++ s.name
  | none => s.name

end Switch

end HexConsole.CommandLine
