import LinkState.Octets

/-!
# Hexadecimal text

Octets are written as two lower case hexadecimal digits each, with nothing in
between.  The reader accepts both cases.
-/

namespace LinkState.Text

/-- The lower case hexadecimal digit of a value below sixteen. -/
def hexDigit (n : Nat) : Char :=
  if n < 10 then Char.ofNat ('0'.toNat + n) else Char.ofNat ('a'.toNat + (n - 10))

/-- The value of a hexadecimal digit of either case. -/
def hexValue? (c : Char) : Option Nat :=
  if '0' ≤ c ∧ c ≤ '9' then some (c.toNat - '0'.toNat)
  else if 'a' ≤ c ∧ c ≤ 'f' then some (c.toNat - 'a'.toNat + 10)
  else if 'A' ≤ c ∧ c ≤ 'F' then some (c.toNat - 'A'.toNat + 10)
  else none

def hexOctet (octet : UInt8) : List Char :=
  [hexDigit (octet.toNat / 16), hexDigit (octet.toNat % 16)]

def hex (octets : Octets) : String :=
  String.ofList (octets.flatMap hexOctet)

/-- Reads pairs of hexadecimal digits. -/
def unhexChars? : List Char → Option Octets
  | [] => some []
  | [_] => none
  | a :: b :: rest => do
      let high ← hexValue? a
      let low ← hexValue? b
      let octets ← unhexChars? rest
      return UInt8.ofNat (high * 16 + low) :: octets

/-- Reads a text of hexadecimal digit pairs. -/
def unhex? (text : String) : Option Octets :=
  unhexChars? text.toList

end LinkState.Text
