import Bhasha.Number.Shortest

/-!
# The text of a number

A number is written with the fewest digits that read back, in positional notation.  Both zeros
are written alike, and the infinities and the absence of a number have words of their own.
-/

namespace Bhasha

open Float.Model (UnpackedFloat)

namespace Number

/-- The sign in front of a number. -/
def signText : UnpackedFloat.Sign → List Char
  | .positive => []
  | .negative => ['-']

/-- The characters of a number's text. -/
def digits (x : Float) : List Char :=
  match x.toModel.unpack with
  | .notANumber => ['N', 'a', 'N']
  | .infinity sign => signText sign ++ ['I', 'n', 'f', 'i', 'n', 'i', 't', 'y']
  | .zero _ => ['0']
  | .finite sign _ _ _ => signText sign ++ (Decimal.shortest x).positional

/-- A number as the language shows it. -/
def format (x : Float) : String :=
  String.ofList (digits x)

end Number

end Bhasha
