import BoundedSimplex.Text.Hidden

/-!
# Quoted Text

Text between quotation marks, as descriptions show it.

A quotation mark and a backslash inside the text follow a backslash, the
usual control characters have letters of their own, and every other hidden
character is written as its number.

## Main definitions

* `quotedChar`: A character between quotation marks.
* `quoted`: Text between quotation marks.
-/

namespace BoundedSimplex

namespace Text

/-- A character inside quotation marks, with a backslash where it could be mistaken or would
    not show. -/
def quotedChar (c : Char) : List Char :=
  if c = '"' then ['\\', '"']
  else if c = '\\' then ['\\', '\\']
  else if c = '\n' then ['\\', 'n']
  else if c = '\r' then ['\\', 'r']
  else if c = '\t' then ['\\', 't']
  else if c.toNat = 0 then ['\\', '0']
  else if isHidden c then ['\\', 'u', '\x7b'] ++ Nat.toDigits 16 c.toNat ++ ['\x7d']
  else [c]

/-- Text between quotation marks. -/
def quoted (s : String) : String :=
  String.ofList (['"'] ++ s.toList.flatMap quotedChar ++ ['"'])

end Text

end BoundedSimplex
