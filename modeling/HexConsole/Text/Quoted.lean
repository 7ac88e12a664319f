import HexConsole.Text.Printable

/-!
# Quoted text

Messages show a piece of the user's text between quotes, on one line and with
nothing invisible. Single quotes are used unless the text holds a single quote
and no double one.
-/
namespace HexConsole.Quoted

def lowerDigit (d : Nat) : Char := Char.ofNat (if d < 10 then 48 + d else 87 + d)

/-- The last `width` hexadecimal digits of `n`, most significant first. -/
def lowerHex : Nat → Nat → List Char
  | 0, _ => []
  | width + 1, n => lowerHex width (n / 16) ++ [lowerDigit (n % 16)]

/-- An unprintable character is written by its code point, in the shortest of
three widths. -/
def escapeCode (c : Char) : List Char :=
  if c.toNat < 0x100 then '\\' :: 'x' :: lowerHex 2 c.toNat
  else if c.toNat < 0x10000 then '\\' :: 'u' :: lowerHex 4 c.toNat
  else '\\' :: 'U' :: lowerHex 8 c.toNat

def escape (quote c : Char) : List Char :=
  if c = quote ∨ c = '\\' then ['\\', c]
  else if c = '\t' then ['\\', 't']
  else if c = '\n' then ['\\', 'n']
  else if c = '\r' then ['\\', 'r']
  else if isPrintable c then [c]
  else escapeCode c

def single : Char := '\x27'

def double : Char := '\x22'

def quoteFor (s : List Char) : Char :=
  if s.contains single && !s.contains double then double else single

end Quoted

/-- The text between its quotes. -/
def quoted (s : String) : String :=
  let q := Quoted.quoteFor s.toList
  String.ofList (q :: s.toList.flatMap (Quoted.escape q) ++ [q])

end HexConsole
