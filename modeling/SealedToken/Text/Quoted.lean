import SealedToken.Text.Unprintable

/-!
# Quoted text

Messages and diagnostic texts show characters and texts between quotes.

* `escaped`: one character inside quotes of a given kind.
* `quotedChar`, `quotedText`: a character in single quotes, a text in double quotes.
-/

namespace SealedToken

/-- The spelling of `c` between two `quote` characters: a backslash and a letter for NUL, tab, line
feed, carriage return, a backslash before a backslash and before the quote, the code point in braces
for what has no visible form, and otherwise the character itself. -/
def escaped (quote c : Char) : List Char :=
  if c = '\x00' then ['\\', '0']
  else if c = '\t' then ['\\', 't']
  else if c = '\r' then ['\\', 'r']
  else if c = '\n' then ['\\', 'n']
  else if c = '\\' then ['\\', '\\']
  else if c = quote then ['\\', quote]
  else if isUnprintable c then ['\\', 'u', '\x7b'] ++ Nat.toDigits 16 c.toNat ++ ['\x7d']
  else [c]

/-- A character in single quotes. -/
def quotedChar (c : Char) : String := String.ofList ('\'' :: escaped '\'' c ++ ['\''])

/-- A text in double quotes. -/
def quotedText (text : String) : String :=
  String.ofList ('"' :: text.toList.flatMap (escaped '"') ++ ['"'])

end SealedToken
