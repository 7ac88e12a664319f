import HexConsole.CommandLine.Settings
import HexConsole.Host
import HexConsole.Log
import HexConsole.Machine.Report
import HexConsole.Random.Twister
import HexConsole.Storage

/-!
# The program

Given its settings, the program boots a console from a stored cartridge and runs
it, either for a number of cycles without a window or in a window until the user
leaves. A run has an ending, a text, a log, and what was seen on the way. It ends
with an exit code unless it is given something that it has no words for.
-/
namespace HexConsole

/-- Why a run breaks down without an exit code. -/
inductive Breakdown where
  /-- The path of the cartridge holds the null character. -/
  | nullInPath
  | blankSeed
  | blankCycles
  | window (e : WindowError)
  /-- A failure that is not a fault of the machine. -/
  | failure (e : Failure)
  deriving DecidableEq, Repr

def Breakdown.message : Breakdown → String
  | nullInPath => "embedded null byte"
  | blankSeed => "The only supported seed types are: None,\nint, float, str, bytes, and bytearray."
  | blankCycles => "'list' object cannot be interpreted as an integer"
  | window e => e.message
  | failure e => e.message

/-- Why a run ended early. -/
inductive Trouble where
  | unreadable (e : ReadFailure) (path : RomPath)
  | stopped (f : Fault)
  | broken (b : Breakdown)
  deriving DecidableEq, Repr

namespace Trouble

def ofFailure : Failure → Trouble
  | .fault f => stopped f
  | e => broken (.failure e)

def ofMishap : Mishap → Trouble
  | .machine e => ofFailure e
  | .window e => broken (.window e)

/-- What the log says about it. A breakdown goes unlogged. -/
def record? : Trouble → Option Record
  | unreadable e path => some ⟨.error, .program, "Could not read ROM: " ++ e.message path⟩
  | stopped f => some ⟨.error, .program, "Emulation stopped: " ++ f.message⟩
  | broken _ => none

end Trouble

inductive Ending where
  | exited (code : Nat)
  | brokeDown (b : Breakdown)
  deriving DecidableEq, Repr

/-- The ending of a run with or without trouble. -/
def Ending.ofTrouble? : Option Trouble → Ending
  | none => exited 0
  | some (.broken b) => brokeDown b
  | some _ => exited 1

/-- What a run leaves behind. -/
structure Run (δ : Type) where
  ending : Ending
  output : String
  log : List Record
  scenes : List (Scene δ)
  /-- The machine at the end, if the cartridge got into one. -/
  machine? : Option Machine

namespace Run

variable {δ : Type}

/-- A run that broke down before it had a console. -/
def ofBreakdown (b : Breakdown) : Run δ := ⟨.brokeDown b, "", [], [], none⟩

/-- A run that reached its end with a console, or ended early. -/
def ofConsole {σ : Type} (console : Console σ) (trouble? : Option Trouble)
    (output : String) (scenes : List (Scene δ)) : Run δ where
  ending := .ofTrouble? trouble?
  output := output
  log := console.journal.toList.map Note.record ++
    ((trouble?.bind Trouble.record?).filter fun r => console.tells r.level).toList
  scenes := scenes
  machine? := some console.machine

/-- A run with one more scene, seen before all others. -/
def after (r : Run δ) (s : Scene δ) : Run δ := { r with scenes := s :: r.scenes }

/-- The log of a run as the user reads it. -/
def logShown (r : Run δ) (programName : String) : String := logText programName r.log

end Run

namespace Program

variable {σ δ : Type}

/-- The name the program speaks under when it is not told another. -/
def standardName : String := "chip8.main"

/-- The console that the settings ask for, before its first reset. -/
def assembled (settings : CommandLine.Settings) (source : σ) : Console σ :=
  .assemble ⟨!settings.decoupleTimers, true⟩ source (.ofVerbose settings.verbose)

/-- A reset console, with its cartridge unless there is trouble. -/
def boot (settings : CommandLine.Settings) (cartridge : Except ReadFailure (List Byte))
    (source : σ) : Console σ × Option Trouble :=
  let console := (assembled settings source).reset
  if settings.rom.contains '\x00' then (console, some (.broken .nullInPath))
  else match cartridge with
    | .error e => (console, some (.unreadable e (.ofString settings.rom)))
    | .ok rom =>
      let o := console.load rom
      (o.console, o.failure?.map .ofFailure)

variable [RandomSource σ]

/-- Runs without a window, prints the last frame and then the registers. -/
def runHeadless (cycles : Int) (console : Console σ) : Run δ :=
  let o := (console.run cycles.toNat).2
  match o.failure? with
  | some e => .ofConsole o.console (some (.ofFailure e)) "" []
  | none =>
    let picture := o.console.machine.frame.text ++ "\n"
    match o.console.machine.report with
    | .error e => .ofConsole o.console (some (.ofFailure e)) picture []
    | .ok report => .ofConsole o.console none (picture ++ report ++ "\n") []

variable [Display δ]

/-- Runs in a window. -/
def runWindowed (display : δ) (scale : Int) (delay : Amount) (console : Console σ)
    (script : List Turn) : Run δ :=
  match Host.present display scale delay console script with
  | .error e => .ofConsole console (some (.broken (.window e))) "" []
  | .ok (h, mishap?) => .ofConsole h.console (mishap?.map .ofMishap) "" h.scenes.toList

/-- Runs a console that has its cartridge, in the way the settings ask for. -/
def runBooted (display : δ) (settings : CommandLine.Settings) (console : Console σ)
    (script : List Turn) : Run δ :=
  if settings.headless then
    match settings.cycles with
    | .blank => .ofConsole console (some (.broken .blankCycles)) "" []
    | .number cycles => runHeadless cycles console
  else
    match settings.scale with
    | .blank =>
      .ofConsole console (some (.broken (.window (.display (Display.sizeComplaint display))))) "" []
    | .number scale => runWindowed display scale settings.delay console script

/-- A run with a given random source. -/
def runWith (display : δ) (source : σ) (settings : CommandLine.Settings)
    (cartridge : Except ReadFailure (List Byte)) (script : List Turn) : Run δ :=
  match boot settings cartridge source with
  | (console, some trouble) => { Run.ofConsole console (some trouble) "" [] with machine? := none }
  | (console, none) => (runBooted display settings console script).after (.ready console.machine)

/-- A run of a cartridge that has been read, or not. The entropy is the seed of a
run that was given none. -/
def runCartridge (display : δ) (settings : CommandLine.Settings)
    (cartridge : Except ReadFailure (List Byte)) (script : List Turn) (entropy : Int) : Run δ :=
  match settings.seed?.getD (.number entropy) with
  | .blank => .ofBreakdown .blankSeed
  | .number seed => runWith display (Twister.ofSeed seed) settings cartridge script

/-- A whole run. -/
def run (display : δ) (settings : CommandLine.Settings) (storage : Storage) (script : List Turn)
    (entropy : Int) : Run δ :=
  runCartridge display settings (storage.read (.ofString settings.rom)) script entropy

end Program

end HexConsole
