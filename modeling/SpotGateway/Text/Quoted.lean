import SpotGateway.Text.Digits
import SpotGateway.Text.Unprintable

/-!
# Quoted text

How messages show a piece of text they cannot vouch for: in double quotes, with quotes, backslashes
and the usual control characters escaped by a letter, and everything that cannot be seen by its code
point.

* `quotedChar` — one character;
* `quoted` — the whole text with its quotes.
-/

set_option autoImplicit false

namespace SpotGateway.Text

/-- How a character appears between the quotes. -/
def quotedChar (c : Char) : List Char :=
  if c = '"' then ['\\', '"']
  else if c = '\\' then ['\\', '\\']
  else if c = '\n' then ['\\', 'n']
  else if c = '\r' then ['\\', 'r']
  else if c = '\t' then ['\\', 't']
  else if c = '\x00' then ['\\', '0']
  else if isUnprintable c then
    ['\\', 'u', '\x7b'] ++ Nat.toDigits 16 c.toNat ++ ['\x7d']
  else [c]

/-- The text between double quotes. -/
def quoted (s : String) : String :=
  String.ofList ('"' :: s.toList.flatMap quotedChar ++ ['"'])

end SpotGateway.Text
