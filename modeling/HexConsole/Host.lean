import HexConsole.Amount
import HexConsole.Console
import HexConsole.Window

/-!
# The host loop

A host shows the machine in a window and plays it in turns. A turn waits, handles
events, takes over the keyboard, runs one cycle and repaints if the cycle asked
for it. The turn in which the user leaves is still played to its end; a failure, of
the machine or of the window, ends the loop at once. What an onlooker sees is kept as
a list of scenes.
-/
namespace HexConsole

inductive Event where
  /-- The host's own timer fired. -/
  | timer
  | quit
  | keyDown (code : Int)
  | keyUp (code : Int)
  deriving DecidableEq, Repr

/-- What happens in one turn: events, and the host keys held at its end. -/
structure Turn where
  events : List Event
  held : List Int
  deriving DecidableEq, Repr

/-- Something an onlooker sees. -/
inductive Scene (δ : Type) where
  /-- A machine with its cartridge, before anything is shown. -/
  | ready (machine : Machine)
  /-- A display that shows what has been painted. -/
  | shown (display : δ)
  /-- The host's timer was started, with its interval in milliseconds. -/
  | timerStarted (interval : Int)
  /-- A turn began by waiting, with the machine at that moment. -/
  | waited (delay : Amount) (machine : Machine)
  | closed

/-- What ends the loop before the user does. -/
inductive Mishap where
  | machine (e : Failure)
  | window (e : WindowError)
  deriving DecidableEq, Repr

namespace Event

/-- The host code of the key that leaves the loop. -/
def quitCode : Int := 113

def leaves : Event → Bool
  | quit => true
  | keyDown code => code == quitCode
  | _ => false

end Event

namespace Turn

/-- A turn in which the user leaves. -/
def quitting : Turn := ⟨[.quit], []⟩

def leaves (t : Turn) : Bool := t.events.any Event.leaves

def keypad (t : Turn) : Keypad := Keypad.ofHost fun code => t.held.contains code

end Turn

structure Host (σ δ : Type) where
  console : Console σ
  window : Window δ
  /-- Oldest first. -/
  scenes : Array (Scene δ)

/-- A host after doing something, with the mishap if there was one. -/
abbrev Played (σ δ : Type) := Host σ δ × Option Mishap

/-- Goes on unless there was a mishap. -/
def Played.andThen {σ δ : Type} (p : Played σ δ) (next : Host σ δ → Played σ δ) : Played σ δ :=
  match p with
  | (h, none) => next h
  | (h, some e) => (h, some e)

namespace Host

variable {σ δ : Type}

def timerInterval : Int := 17

def see (h : Host σ δ) (s : Scene δ) : Host σ δ := { h with scenes := h.scenes.push s }

def handle (h : Host σ δ) : Event → Host σ δ
  | .timer => { h with console := h.console.tick }
  | _ => h

variable [Display δ]

/-- Opens a window for a console that has its cartridge. The timer is started
only if the cycles do not tick. -/
def opened (d : δ) (scale : Int) (console : Console σ) : Except WindowError (Host σ δ) := do
  let window ← Window.opened d scale 64 32
  let h : Host σ δ := ⟨console, window, #[.shown window.display]⟩
  return if console.wiring.ticksAfterCycle then h else h.see (.timerStarted timerInterval)

def wait (h : Host σ δ) (delay : Amount) : Played σ δ :=
  (h.see (.waited delay h.console.machine),
    (Display.wait h.window.display delay).map fun e => .window (.display e))

/-- Paints the frame and shows it, if it is marked as changed. -/
def repaint (h : Host σ δ) : Played σ δ :=
  if h.console.machine.redraw then
    match h.console.machine.frame.view with
    | .error e => (h, some (.window (.frame e)))
    | .ok view =>
      match h.window.drawFrame view with
      | (window, some e) => ({ h with window }, some (.window e))
      | (window, none) =>
        ({ h with window, console := h.console.clearRedraw }.see (.shown window.display), none)
  else (h, none)

variable [RandomSource σ]

/-- Performs an operation on the machine. -/
def perform (h : Host σ δ) (operation : Operation) : Played σ δ :=
  let o := h.console.perform operation
  ({ h with console := o.console }, o.failure?.map .machine)

/-- Hands the keyboard over to the machine. -/
def hold (h : Host σ δ) (keys : Keypad) : Played σ δ := h.perform (.setKeys keys.toList)

/-- Plays one turn. -/
def turn (delay : Amount) (h : Host σ δ) (t : Turn) : Played σ δ :=
  (h.wait delay).andThen fun h =>
  ((t.events.foldl handle h).hold t.keypad).andThen fun h =>
  (h.perform .cycle).andThen repaint

/-- Plays turns until the user leaves or there is a mishap. The user leaves right
after the last turn of a script that does not say when. -/
def play (delay : Amount) (h : Host σ δ) : List Turn → Played σ δ
  | [] => h.turn delay .quitting
  | t :: rest =>
    match h.turn delay t with
    | (h, some e) => (h, some e)
    | (h, none) => if t.leaves then (h, none) else play delay h rest

/-- Plays a script in a new window. The window is closed at the end unless there was a
mishap. -/
def present (d : δ) (scale : Int) (delay : Amount) (console : Console σ) (script : List Turn) :
    Except WindowError (Played σ δ) := do
  let h ← opened d scale console
  match h.play delay script with
  | (h, some e) => return (h, some e)
  | (h, none) => return (h.see .closed, none)

end Host

end HexConsole
