import HexConsole.Datum
import HexConsole.Log
import HexConsole.Machine.Execution
import HexConsole.Random.Source

/-!
# The console

A machine together with what it is wired to: a random source, a listener for
tones, and a journal of what happened, as far as the threshold lets it be told. The
host operations are data, so a session is a list of them. An operation that fails
still leaves a console.
-/
namespace HexConsole

structure Wiring where
  /-- Whether the timers tick after every cycle. -/
  ticksAfterCycle : Bool
  /-- Whether somebody listens for tones. -/
  toneListener : Bool
  deriving DecidableEq, Repr

structure Console (σ : Type) where
  machine : Machine
  wiring : Wiring
  source : σ
  /-- The number of random bytes taken so far. -/
  drawn : Nat
  /-- The number of tones the listener has heard. -/
  tones : Nat
  /-- The least level that is told of. -/
  threshold : Level
  journal : Array Note

/-- A console after an operation, with the failure if it failed. -/
structure Outcome (σ : Type) where
  console : Console σ
  failure? : Option Failure

inductive Operation where
  | reset
  | load (rom : List Byte)
  | setKeys (states : List Bool)
  | press (key : Int)
  | release (key : Int)
  | clearRedraw
  | tick
  | fetch
  | process (operand : Int)
  | cycle
  deriving DecidableEq, Repr

/-- Hands over data as the states of the keys. A key is down if its datum counts as true. -/
def Operation.handOver (data : List Datum) : Operation := .setKeys (data.map Datum.holds)

/-- What an operation gives back to its caller. -/
inductive Reply where
  | nothing
  /-- The word that was fetched, or the operand that was carried out. -/
  | word (word : Int)
  /-- Whether the tick found the sound timer running. -/
  | tone (sounding : Bool)
  deriving DecidableEq, Repr

/-- A reply, unless the operation has failed. -/
def Outcome.giving {σ : Type} (o : Outcome σ) (reply : Reply) : Except Failure Reply :=
  match o.failure? with
  | some e => .error e
  | none => .ok reply

namespace Console

variable {σ : Type}

/-- A console whose machine has not been reset yet. -/
def assemble (wiring : Wiring) (source : σ) (threshold : Level) : Console σ :=
  { machine := .poweredOff, wiring, source, drawn := 0, tones := 0, threshold, journal := #[] }

/-- Whether something of a level is told. -/
def tells (c : Console σ) (level : Level) : Bool := c.threshold.admits level

def note (c : Console σ) (n : Note) : Console σ :=
  { c with journal := if c.tells n.record.level then c.journal.push n else c.journal }

/-- Clears the machine, a recorded fault included. What has been drawn from the
random source stays drawn. -/
def reset (c : Console σ) : Console σ :=
  { c with machine := c.machine.reset }.note .initialized

@[simp] theorem machine_reset (c : Console σ) : c.reset.machine = .initial :=
  c.machine.reset_eq_initial

/-- The outcome of an operation that acts on the machine alone. -/
def update (c : Console σ) (result : Except Failure Machine) : Outcome σ :=
  match result with
  | .ok machine => ⟨{ c with machine }, none⟩
  | .error e => ⟨c, some e⟩

def load (c : Console σ) (rom : List Byte) : Outcome σ :=
  match c.machine.load rom with
  | .ok machine => ⟨{ c with machine }.note (.loaded rom.length), none⟩
  | .error e => ⟨c, some e⟩

def clearRedraw (c : Console σ) : Console σ :=
  { c with machine := { c.machine with redraw := false } }

/-- Ticks the timers. A tone is noted, and then heard if somebody listens. -/
def tick (c : Console σ) : Console σ :=
  let c := { c with machine := c.machine.tick }
  if c.machine.tone then
    let c := c.note .beep
    if c.wiring.toneListener then { c with tones := c.tones + 1 }.note .toneHeard else c
  else c

/-- Ticks the timers at the end of a cycle, unless the host does. -/
def settle (c : Console σ) : Console σ := if c.wiring.ticksAfterCycle then c.tick else c

/-- Notes the address of the next instruction. -/
def look (c : Console σ) : Console σ :=
  { c with machine := { c.machine with operandAddress := c.machine.counter } }

/-- Moves the counter past an instruction that has been fetched, and notes the word if
such details are told. -/
def pass (c : Console σ) (word : Int) : Console σ :=
  let c := { c with machine := { c.machine with counter := c.machine.counter + 2 } }
  if c.tells .debug then c.note (.executing c.machine.operandAddress word) else c

/-- A word is noted like anything else. -/
theorem pass_eq (c : Console σ) (word : Int) : c.pass word =
    { c with machine := { c.machine with counter := c.machine.counter + 2 } }.note
      (.executing c.machine.operandAddress word) := by
  cases told : c.tells .debug with
  | true => exact if_pos told
  | false =>
    have silent : c.threshold.admits .debug = false := told
    simp [pass, note, tells, Note.record, silent]

variable [RandomSource σ]

/-- The byte for an operand, with the console it leaves. A random byte is taken only
if the instruction asks for one. -/
def supply (c : Console σ) (operand : Int) : Int × Console σ :=
  if (Instruction.decode operand).any Instruction.drawsByte then
    let (byte, source) := RandomSource.draw c.source
    (byte, { c with source, drawn := c.drawn + 1 })
  else (0, c)

/-- Dispatches an operand against the current state. -/
def process (c : Console σ) (operand : Int) : Outcome σ :=
  let (byte, c) := c.supply operand
  let (machine, failure?) := c.machine.dispatch byte operand
  ⟨{ c with machine }, failure?⟩

/-- Records a fault. Any other failure leaves the machine running. -/
def halt (c : Console σ) : Failure → Outcome σ
  | .fault f =>
    ⟨{ c with machine := { c.machine with fault := some f } }.note (.halted f), some (.fault f)⟩
  | e => ⟨c, some e⟩

/-- Fetches a word, moves the counter past it and carries it out. The address of the
word is noted first, and stays noted if there is no word. -/
def advance (c : Console σ) : Outcome σ :=
  let c := c.look
  match c.machine.fetch with
  | .error e => ⟨c, some e⟩
  | .ok word => (c.pass word).process word

/-- One cycle. A machine with a recorded fault repeats it and does nothing, and a
cycle that fails never ticks. -/
def cycle (c : Console σ) : Outcome σ :=
  match c.machine.fault with
  | some f => ⟨c, some (.fault f)⟩
  | none =>
    let o := c.advance
    match o.failure? with
    | some e => o.console.halt e
    | none => ⟨o.console.settle, none⟩

def perform (c : Console σ) : Operation → Outcome σ
  | .reset => ⟨c.reset, none⟩
  | .load rom => c.load rom
  | .setKeys states => c.update (c.machine.setKeys states)
  | .press key => c.update (c.machine.setKey key true)
  | .release key => c.update (c.machine.setKey key false)
  | .clearRedraw => ⟨c.clearRedraw, none⟩
  | .tick => ⟨c.tick, none⟩
  | .fetch => c.update (c.machine.fetch.map fun _ => c.machine)
  | .process operand => c.process operand
  | .cycle => c.cycle

/-- What an operation gives back, or how it fails. -/
def reply (c : Console σ) : Operation → Except Failure Reply
  | .fetch => c.machine.fetch.map .word
  | .tick => .ok (.tone c.tick.machine.tone)
  | .process operand => (c.process operand).giving (.word operand)
  | operation => (c.perform operation).giving .nothing

/-- Performs operations in order, whether or not some of them fail. -/
def performAll (c : Console σ) (operations : List Operation) : Console σ :=
  operations.foldl (fun c operation => (c.perform operation).console) c

/-- Up to `n` more cycles, up to the first that fails, with the number that has
finished. -/
def runFrom (finished : Nat) (c : Console σ) : Nat → Nat × Outcome σ
  | 0 => (finished, ⟨c, none⟩)
  | n + 1 =>
    let o := c.cycle
    match o.failure? with
    | some _ => (finished, o)
    | none => runFrom (finished + 1) o.console n

def run (c : Console σ) (n : Nat) : Nat × Outcome σ := runFrom 0 c n

end Console

end HexConsole
