import ProxyPlane.Text.Printable

/-!
# Quoted texts

Contents that a message cites are quoted, so that blanks and invisible characters can be seen.

## What is here

* `Quoted.escape`, how one character is shown between the quotation marks.
* `quoted`, a text between quotation marks.
-/

set_option autoImplicit false
namespace ProxyPlane

/-- How a character is shown in a quoted text: a name for the usual ones, and the code point of
those that have no visible form. -/
def Quoted.escape (c : Char) : List Char :=
  if c = Char.ofNat 0 then ['\\', '0']
  else if c = '\t' then ['\\', 't']
  else if c = '\r' then ['\\', 'r']
  else if c = '\n' then ['\\', 'n']
  else if c = '"' then ['\\', '"']
  else if c = '\\' then ['\\', '\\']
  else if isShown c then [c]
  else ['\\', 'u', Char.ofNat 0x7B] ++ Nat.toDigits 16 c.toNat ++ [Char.ofNat 0x7D]

/-- A text between quotation marks. -/
def quoted (s : String) : String :=
  String.ofList ('"' :: (s.toList.flatMap Quoted.escape ++ ['"']))

end ProxyPlane
