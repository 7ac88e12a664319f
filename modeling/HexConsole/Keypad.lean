/-!
# The hexadecimal keypad

Sixteen keys, each up or down. A host keyboard holds them as key codes: the
number pad carries the digits 0 to 9 and the letters a to f the rest.
-/
namespace HexConsole

/-- Keys and registers are numbered from zero. -/
instance sixteen_neZero : @NeZero Nat Zero.ofOfNat0 16 := ⟨by decide⟩

abbrev Keypad := Vector Bool 16

namespace Keypad

def released : Keypad := Vector.replicate 16 false

/-- The host key code of a key. -/
def code (k : Fin 16) : Int :=
  if k = 0 then 1073741922 else if k < 10 then 1073741912 + k.val else 87 + k.val

def ofHost (held : Int → Bool) : Keypad := Vector.ofFn fun k => held (code k)

/-- The lowest key that is down. -/
def first? (keys : Keypad) : Option Nat := keys.toList.findIdx? id

end Keypad

end HexConsole
