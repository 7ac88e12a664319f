import HexConsole.Amount
import HexConsole.CommandLine.Word

/-!
# Settings

What a command line asks for. Words take effect from left to right, a later value
replacing an earlier one; the first plain word that no switch takes is the
cartridge. Words left over are refused at the end, after a missing cartridge.
-/
namespace HexConsole.CommandLine

structure Settings where
  rom : String
  scale : Amount
  /-- Milliseconds to wait before each cycle in a window. -/
  delay : Amount
  seed? : Option Amount
  decoupleTimers : Bool
  headless : Bool
  /-- The number of cycles without a window. -/
  cycles : Amount
  verbose : Bool
  deriving DecidableEq, Repr

/-- The settings without a cartridge in which nothing was asked for. -/
def Settings.standard : Settings where
  rom := ""
  scale := .number 10
  delay := .number 1
  seed? := none
  decoupleTimers := false
  headless := false
  cycles := .number 1000
  verbose := false

/-- The switches of one word: toggles, and after them at most one parameter, whose
value is joined to the word or still to come. -/
inductive Cluster where
  | toggles (before : List Toggle)
  | value (before : List Toggle) (p : Parameter) (text : String)
  | pending (before : List Toggle) (p : Parameter)
  deriving DecidableEq, Repr

namespace Cluster

/-- A switch that ends its word. -/
def ending (before : List Toggle) : Switch → Cluster
  | .toggle t => toggles (before ++ [t])
  | .parameter p => pending before p

/-- Takes apart a switch and the text joined to it. The text is the value of a
parameter; after the letter of a toggle it goes on with another letter. -/
def ofJoined (before : List Toggle) (byLetter : Bool) :
    Switch → List Char → Except Refusal Cluster
  | .parameter p, text => .ok (value before p (String.ofList text))
  | .toggle t, [] => .error (.strayValue t "")
  | .toggle t, c :: rest =>
    match byLetter, Switch.ofLetter? c with
    | true, some next =>
      if rest = [] then .ok (ending (before ++ [t]) next)
      else ofJoined (before ++ [t]) true next rest
    | _, _ => .error (.strayValue t (String.ofList (c :: rest)))

def ofWord (s : Switch) (byLetter : Bool) : Option String → Except Refusal Cluster
  | none => .ok (ending [] s)
  | some text => ofJoined [] byLetter s text.toList

end Cluster

/-- Settings in the making. -/
structure Progress where
  settings : Settings
  romGiven : Bool
  /-- Whether the last word was the cartridge. -/
  romLast : Bool
  /-- A parameter that waits for the next word to be its value, after toggles that
  wait with it. -/
  waiting? : Option (List Toggle × Parameter)
  /-- Words that nothing took, in order. -/
  leftOver : List String
  deriving DecidableEq, Repr

namespace Progress

def start : Progress := ⟨.standard, false, false, none, []⟩

def setRom (p : Progress) (rom : String) : Progress :=
  { p with settings := { p.settings with rom }, romGiven := true, romLast := true }

def leave (p : Progress) (word : String) : Progress :=
  { p with leftOver := p.leftOver ++ [word], romLast := false }

def turnOn (p : Progress) : Toggle → Except Refusal Progress
  | .help => .error .help
  | .decoupleTimers => .ok { p with settings := { p.settings with decoupleTimers := true } }
  | .headless => .ok { p with settings := { p.settings with headless := true } }
  | .verbose => .ok { p with settings := { p.settings with verbose := true } }

def set (p : Progress) (q : Parameter) (amount : Amount) : Progress :=
  match q with
  | .scale => { p with settings := { p.settings with scale := amount } }
  | .delay => { p with settings := { p.settings with delay := amount } }
  | .seed => { p with settings := { p.settings with seed? := some amount } }
  | .cycles => { p with settings := { p.settings with cycles := amount } }

/-- Gives a parameter its value. A separator in place of one leaves it blank. -/
def assign (p : Progress) (q : Parameter) (text : String) : Except Refusal Progress :=
  if text = "--" then .ok (p.set q .blank)
  else match Integer.read text with
    | none => .error (.notInteger q text)
    | some n => .ok (p.set q (.number n))

/-- Lets a cluster take effect, unless it lacks a value. -/
def act (p : Progress) : Cluster → Except Refusal Progress
  | .toggles before => before.foldlM turnOn p
  | .value before q text => do (← before.foldlM turnOn p).assign q text
  | .pending before q => .ok { p with waiting? := some (before, q) }

/-- Takes one word. A separator goes with the cartridge before or after it and is
left over anywhere else. -/
def step (p : Progress) (word : Word) : Except Refusal Progress :=
  match p.waiting?, word with
  | some (before, q), .plain text => { p with waiting? := none }.act (.value before q text)
  | some (_, q), _ => .error (.missingValue q)
  | none, .plain text => .ok (if p.romGiven then p.leave text else p.setRom text)
  | none, .separator => .ok (if p.romGiven && !p.romLast then p.leave "--" else p)
  | none, .unknown text => .ok (p.leave text)
  | none, .switch s byLetter joined? => do
    let cluster ← Cluster.ofWord s byLetter joined?
    { p with romLast := false }.act cluster

def finish (p : Progress) : Except Refusal Settings :=
  match p.waiting? with
  | some (_, q) => .error (.missingValue q)
  | none =>
    if !p.romGiven then .error .missingRom
    else if p.leftOver = [] then .ok p.settings
    else .error (.unrecognized p.leftOver)

end Progress

/-- Reads a command line. -/
def parse (line : List String) : Except Refusal Settings := do
  let words ← Word.sort line
  let p ← words.foldlM Progress.step .start
  p.finish

end HexConsole.CommandLine
