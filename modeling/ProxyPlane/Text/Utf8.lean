/-!
# Text as bytes

Documents, snapshots and answers of the proxy are byte strings.  This file fixes how text becomes
bytes and how bytes become text again.

## What is here

* `Bytes`, the byte strings that files and requests hold.
* `Utf8.encode`, the UTF-8 bytes of a text, and `Utf8.decode?`, which reads them back
  (`decode?_encode`) and refuses every other byte string.
* `Utf8.decodeLossy`, which never refuses: each maximal ill-formed piece becomes one U+FFFD.
-/

set_option autoImplicit false
namespace ProxyPlane

/-- The contents of a file or of a message. -/
abbrev Bytes := List UInt8

namespace Utf8

/-- The UTF-8 bytes of a text. -/
def encode (s : String) : Bytes := s.toByteArray.data.toList

/-- The text with these UTF-8 bytes, if they are well formed. -/
def decode? (bs : Bytes) : Option String := String.fromUTF8? ⟨bs.toArray⟩

@[simp]
theorem decode?_encode (s : String) : decode? (encode s) = some s := by
  obtain ⟨b, h⟩ := s
  simp [decode?, encode, String.fromUTF8?, String.fromUTF8, h]

/-! ## Reading text that may be ill formed -/

/-- How a multi-byte character may start: the continuation bytes it needs and the range of the
first of them. -/
structure Lead where
  following : Nat
  low : UInt8
  high : UInt8

/-- What may follow a leading byte above 0x7F. -/
def lead? (b : UInt8) : Option Lead :=
  if 0xC2 ≤ b ∧ b ≤ 0xDF then some ⟨1, 0x80, 0xBF⟩
  else if b = 0xE0 then some ⟨2, 0xA0, 0xBF⟩
  else if b = 0xED then some ⟨2, 0x80, 0x9F⟩
  else if 0xE1 ≤ b ∧ b ≤ 0xEF then some ⟨2, 0x80, 0xBF⟩
  else if b = 0xF0 then some ⟨3, 0x90, 0xBF⟩
  else if 0xF1 ≤ b ∧ b ≤ 0xF3 then some ⟨3, 0x80, 0xBF⟩
  else if b = 0xF4 then some ⟨3, 0x80, 0x8F⟩
  else none

/-- The payload bits of a continuation byte put behind those read so far. -/
def push (code : Nat) (b : UInt8) : Nat := code * 64 + b.toNat % 64

/-- The replacement character, which stands for an ill-formed piece. -/
def replacement : Char := Char.ofNat 0xFFFD

/-- The characters of a byte string; a maximal ill-formed piece is one replacement character.
Bytes still `needed` by the character begun as `code` must lie between `low` and `high`. -/
def lossyChars (needed code : Nat) (low high : UInt8) : Bytes → List Char
  | [] => if needed = 0 then [] else [replacement]
  | b :: rest =>
    if needed = 0 ∨ ¬ (low ≤ b ∧ b ≤ high) then
      let broken := if needed = 0 then [] else [replacement]
      broken ++
        if b < 0x80 then Char.ofNat b.toNat :: lossyChars 0 0 0 0 rest
        else match lead? b with
          | some l =>
            lossyChars l.following (b.toNat % Nat.pow 2 (6 - l.following)) l.low l.high rest
          | none => replacement :: lossyChars 0 0 0 0 rest
    else if needed = 1 then Char.ofNat (push code b) :: lossyChars 0 0 0 0 rest
    else lossyChars (needed - 1) (push code b) 0x80 0xBF rest

/-- The text of a byte string, with U+FFFD for each maximal ill-formed piece. -/
def decodeLossy (bs : Bytes) : String := String.ofList (lossyChars 0 0 0 0 bs)

end Utf8
end ProxyPlane
