import LinkState.Octets
import LinkState.Text.Number

/-!
# IPv4 addresses

An address has four octets and is written as four decimal numbers with dots
between them.  No number is written with a leading zero.
-/

namespace LinkState

structure Ipv4 where
  a : UInt8
  b : UInt8
  c : UInt8
  d : UInt8
  deriving DecidableEq, Repr

namespace Ipv4

def toOctets (address : Ipv4) : Octets :=
  [address.a, address.b, address.c, address.d]

def read : Octets → Octets.Reading Ipv4
  | a :: b :: c :: d :: rest => .ok (⟨a, b, c, d⟩, rest)
  | short => .error ⟨4, short.length⟩

/-- The 32-bit number whose octets are those of the address. -/
def toNat (address : Ipv4) : Nat :=
  ((address.a.toNat * 256 + address.b.toNat) * 256 + address.c.toNat) * 256 +
    address.d.toNat

def text (address : Ipv4) : String :=
  ".".intercalate (address.toOctets.map fun octet => toString octet.toNat)

/-- One number of the text: at most three digits, no leading zero. -/
def octet? (chars : List Char) : Option UInt8 :=
  if chars.isEmpty ∨ 3 < chars.length then none
  else if chars.head? = some '0' ∧ 1 < chars.length then none
  else ((Text.digits? Text.decimalValue? 10 chars).filter (· ≤ 255)).map UInt8.ofNat

def ofChars? (chars : List Char) : Option Ipv4 :=
  match Text.fields '.' chars with
  | [a, b, c, d] => return ⟨← octet? a, ← octet? b, ← octet? c, ← octet? d⟩
  | _ => none

end Ipv4

end LinkState
