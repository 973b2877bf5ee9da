import ReversePolish.Text.Hidden

/-!
# Quoted text

A quoted text stands between double quotes.  A quote or backslash inside it, and
the common control characters, are written with a backslash and a letter; every
other character that does not show by itself is written by its code point in
hexadecimal.
-/

namespace ReversePolish.Quoted

/-- A character by its code point. -/
def byCodePoint (c : Char) : List Char :=
  '\\' :: 'u' :: '\x7b' :: (Nat.toDigits 16 c.toNat ++ ['\x7d'])

/-- A character as it is written between quotes. -/
def escape (c : Char) : List Char :=
  if c = '"' then ['\\', '"']
  else if c = '\\' then ['\\', '\\']
  else if c = '\x00' then ['\\', '0']
  else if c = '\t' then ['\\', 't']
  else if c = '\n' then ['\\', 'n']
  else if c = '\r' then ['\\', 'r']
  else if c.toNat < 0x20 then byCodePoint c
  else if c.toNat < 0x7f then [c]
  else if isHidden c then byCodePoint c
  else [c]

/-- A text between quotes. -/
def quote (s : String) : String := String.ofList ('"' :: (s.toList.flatMap escape ++ ['"']))

end ReversePolish.Quoted
