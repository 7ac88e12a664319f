import HexConsole.Canvas
import HexConsole.Program

/-!
# The command

Reads the cartridge that the command line names, runs it, and prints what the run
says. There is no user to watch, so a run in a window has an empty script and paints on
a canvas.
-/
namespace HexConsole.Main

/-- The size of the display that the canvas stands for. -/
def desktop : WindowSize := ⟨1024, 768, by decide, by decide⟩

def failure : IO.Error → ReadFailure
  | .noFileOrDirectory .. => .missing
  | .inappropriateType _ number reason => .other number.toNat reason
  | .permissionDenied _ number reason => .other number.toNat reason
  | _ => .other 5 "Input/output error"

def readCartridge (path : RomPath) : IO (Except ReadFailure (List Byte)) := do
  try
    let content ← IO.FS.readBinFile path.text
    return .ok (content.toList.map UInt8.toBitVec)
  catch e => return .error (failure e)

def start (line : List String) : IO UInt32 := do
  match CommandLine.parse line with
  | .error e =>
    unless e.exitCode = 0 do IO.eprintln ("error: " ++ e.message)
    return e.exitCode.toUInt32
  | .ok settings =>
    let cartridge ← readCartridge (.ofString settings.rom)
    let entropy ← IO.rand 0 0xFFFFFFFF
    let r := Program.runCartridge (Canvas.idle desktop) settings cartridge [] entropy
    IO.print r.output
    IO.eprint (r.logShown Program.standardName)
    match r.ending with
    | .exited code => return code.toUInt32
    | .brokeDown b =>
      IO.eprintln ("error: " ++ b.message)
      return 1

end HexConsole.Main

def main (line : List String) : IO UInt32 := HexConsole.Main.start line
