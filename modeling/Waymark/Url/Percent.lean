import Waymark.Unicode.Utf8
/-!
Octets written as a percent sign and two hexadecimal digits.
-/

namespace Waymark.Url.Percent

/-- The hexadecimal digit of a value below sixteen. -/
def hexDigit (value : Nat) : Char :=
  if value < 10 then Char.ofNat (0x30 + value) else Char.ofNat (0x41 + (value - 10))

/-- The value of a hexadecimal digit. -/
def hexValue? (c : Char) : Option Nat :=
  if '0' ≤ c ∧ c ≤ '9' then some (c.toNat - 0x30)
  else if 'a' ≤ c ∧ c ≤ 'f' then some (c.toNat - 0x61 + 10)
  else if 'A' ≤ c ∧ c ≤ 'F' then some (c.toNat - 0x41 + 10)
  else none

/-- An octet in its written form. -/
def encodeOctet (octet : UInt8) : List Char :=
  ['%', hexDigit (octet.toNat / 16), hexDigit (octet.toNat % 16)]

/-- Whether a character is written by its octets wherever it stands in a URL: a control character
or one beyond ASCII. -/
def isUnprintable (c : Char) : Bool :=
  c.toNat < 0x20 || 0x7F ≤ c.toNat

/-- Write a text, escaping the characters beyond printable ASCII and those asked for. -/
def encode (escaped : Char → Bool) (cs : List Char) : List Char :=
  cs.flatMap fun c =>
    if isUnprintable c || escaped c then (String.utf8EncodeChar c).flatMap encodeOctet else [c]

/-- The octets of a written text. A percent sign that no two digits follow stands for itself. -/
def decode : List Char → List UInt8
  | '%' :: high :: low :: rest =>
      match hexValue? high, hexValue? low with
      | some h, some l => UInt8.ofNat (h * 16 + l) :: decode rest
      | _, _ => String.utf8EncodeChar '%' ++ decode (high :: low :: rest)
  | c :: rest => String.utf8EncodeChar c ++ decode rest
  | [] => []

end Waymark.Url.Percent
