import Reckon.Text.DefaultIgnorable
import Reckon.Text.GraphemeExtend
import Reckon.Text.Unprintable

/-! Characters and strings shown in quotes for a reader: what would not be seen is escaped. -/
namespace Reckon.Text

/-- The code point in braces, in lower-case hexadecimal without padding. -/
def codeEscape (c : Char) : List Char :=
  ['\\', 'u', '\x7b'] ++ Nat.toDigits 16 c.toNat ++ ['\x7d']

/-- What shows on its own; plain ASCII needs no table. -/
def isVisible (c : Char) : Bool :=
  if c.toNat < 0x7F then 0x20 ≤ c.toNat
  else !(GraphemeExtend.isGraphemeExtend c || DefaultIgnorable.isDefaultIgnorable c
    || Unprintable.isUnprintable c)

/-- A character inside quotes of the kind `quote`. -/
def escape (quote c : Char) : List Char :=
  if c = '\x00' then ['\\', '0']
  else if c = '\t' then ['\\', 't']
  else if c = '\r' then ['\\', 'r']
  else if c = '\n' then ['\\', 'n']
  else if c = '\\' ∨ c = quote then ['\\', c]
  else if isVisible c then [c]
  else codeEscape c

def quotedChar (c : Char) : String := String.ofList ('\'' :: escape '\'' c ++ ['\''])

def quotedString (s : String) : String :=
  String.ofList ('"' :: s.toList.flatMap (escape '"') ++ ['"'])

end Reckon.Text
