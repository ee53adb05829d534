import Cil.Text.Hex
import Cil.Text.Unprintable

/-!
# Quoted text

A text between double quotes, with escapes for quotes, backslashes and characters that
do not show.
-/

namespace Cil

namespace Text

/-- A character inside of quotes. -/
def quotedChar (char : Char) : List Char :=
  match char with
  | '\x00' => ['\\', '0']
  | '\t' => ['\\', 't']
  | '\r' => ['\\', 'r']
  | '\n' => ['\\', 'n']
  | '"' => ['\\', '"']
  | '\\' => ['\\', '\\']
  | other =>
    if isPrintable other then [other]
    else ['\\', 'u', '\x7b'] ++ (hexLower 1 other.toNat).toList ++ ['\x7d']

/-- A text between quotes. -/
def quoted (text : String) : String :=
  String.ofList ('"' :: text.toList.flatMap quotedChar ++ ['"'])

end Text

end Cil
