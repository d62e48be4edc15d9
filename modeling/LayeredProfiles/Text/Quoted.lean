import LayeredProfiles.Text.PrintTable

set_option autoImplicit false

/-!
# Texts in quotes

A text quoted for a message is meant to be read by a person: characters that can be shown are
shown, and every other one is written as an escape, by a short name if it has one and otherwise
by its code point.

## Main definitions

* `quoted` — a string in double quotes.
-/

namespace LayeredProfiles.Text

/-- The digits of a number in base sixteen, in lower case. -/
def hexDigits (n : Nat) : List Char :=
  Nat.toDigits 16 n

/-- A character inside quotes. -/
def quotedChar (c : Char) : List Char :=
  if c = '"' then ['\\', '"']
  else if c = '\\' then ['\\', '\\']
  else if c = '\n' then ['\\', 'n']
  else if c = '\r' then ['\\', 'r']
  else if c = '\t' then ['\\', 't']
  else if c.toNat = 0 then ['\\', '0']
  else if hasOwnGlyph c then [c]
  else '\\' :: 'u' :: '{' :: hexDigits c.toNat ++ ['}']

/-- A string in double quotes. -/
def quoted (text : String) : String :=
  String.ofList ('"' :: text.toList.flatMap quotedChar ++ ['"'])

end LayeredProfiles.Text
