import HexConsole.CommandLine.Refusal
import HexConsole.Text.Integer

/-!
# Words of a command line

Each word is sorted before any of them takes effect. Words after the first `--`
are plain. A word that starts with a dash is a switch if it names one, exactly or
by an unambiguous beginning of its long name; otherwise it is plain if it looks
like a negative number or holds a space.
-/
namespace HexConsole.CommandLine

inductive Word where
  | plain (text : String)
  | separator
  /-- A switch, whether it was written as a letter, and a value joined to it. -/
  | switch (switch : Switch) (byLetter : Bool) (joined? : Option String)
  | unknown (text : String)
  deriving DecidableEq, Repr

namespace Word

/-- A switch that the text names in full, and whether as a letter. -/
def named? (text : List Char) : Option (Switch × Bool) :=
  match text with
  | ['-', c] => (Switch.ofLetter? c).map (·, true)
  | _ => (Switch.ofName? (String.ofList text)).map (·, false)

/-- The text up to the first equals sign, and the text after it. -/
def splitValue (text : List Char) : List Char × Option String :=
  match text.dropWhile (· != '=') with
  | [] => (text, none)
  | _ :: value => (text.takeWhile (· != '='), some (String.ofList value))

/-- The switches whose long name begins with the text. -/
def candidates (start : List Char) : List Switch :=
  Switch.all.filter fun s => start.isPrefixOf s.name.toList

/-- A dashed word that names no switch. -/
def other (text : List Char) : Word :=
  if Integer.looksNegative text || text.contains ' ' then plain (String.ofList text)
  else unknown (String.ofList text)

def ofLong (text : List Char) : Except Refusal Word :=
  let (start, joined?) := splitValue text
  match candidates start with
  | [] => .ok (other text)
  | [s] => .ok (switch s false joined?)
  | many => .error (.ambiguous (String.ofList text) many)

def ofShort (letter : Char) (text rest : List Char) : Word :=
  match Switch.ofLetter? letter with
  | some s => switch s true (some (String.ofList rest))
  | none => other text

/-- A dashed word that no switch equals, with or without a joined value. -/
def ofUnmatched (text : List Char) : Except Refusal Word :=
  match text with
  | '-' :: '-' :: _ => ofLong text
  | '-' :: letter :: rest => .ok (ofShort letter text rest)
  | _ => .ok (plain (String.ofList text))

def ofDashed (text : List Char) : Except Refusal Word :=
  match named? text with
  | some (s, byLetter) => .ok (switch s byLetter none)
  | none =>
    match splitValue text with
    | (start, some value) =>
      match named? start with
      | some (s, byLetter) => .ok (switch s byLetter (some value))
      | none => ofUnmatched text
    | _ => ofUnmatched text

def ofString (text : String) : Except Refusal Word :=
  match text.toList with
  | '-' :: c :: rest => ofDashed ('-' :: c :: rest)
  | _ => .ok (plain text)

/-- Sorts a command line. -/
def sort : List String → Except Refusal (List Word)
  | [] => .ok []
  | "--" :: rest => .ok (separator :: rest.map plain)
  | text :: rest => do
    let word ← ofString text
    let more ← sort rest
    return word :: more

end Word

end HexConsole.CommandLine
