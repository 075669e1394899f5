import CellWorld.Text.Printable

/-!
# Quoted text

Text in a message stands in double quotes.

* `quoteChar c` — a quote and a backslash get a backslash, a line break, a return, a tab and the
  null character a letter or digit, and what `isPrintable` denies its code point in hexadecimal
* `quoted s` — the characters of `s` between quotes
-/

namespace CellWorld.Text

def quoteChar (c : Char) : List Char :=
  if c = '"' then ['\\', '"']
  else if c = '\\' then ['\\', '\\']
  else if c = '\n' then ['\\', 'n']
  else if c = '\r' then ['\\', 'r']
  else if c = '\t' then ['\\', 't']
  else if c = '\x00' then ['\\', '0']
  else if isPrintable c then [c]
  else ['\\', 'u', '\x7b'] ++ Nat.toDigits 16 c.toNat ++ ['\x7d']

def quoted (s : String) : String :=
  String.ofList ('"' :: s.toList.flatMap quoteChar ++ ['"'])

end CellWorld.Text
