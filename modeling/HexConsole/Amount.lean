/-!
# Amounts

A number that the user is asked for may be given or expressly left blank. What a
blank amount means is for whoever needs the number to decide.
-/
namespace HexConsole

inductive Amount where
  | number (n : Int)
  | blank
  deriving DecidableEq, Repr

end HexConsole
