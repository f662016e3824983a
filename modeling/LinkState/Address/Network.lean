import LinkState.Address.V6

/-!
# Networks

An address with the length of its network part, written with a slash between
them.  Host bits are kept.  Without a slash the whole address is the network
part.  The length is a decimal number, and for IPv4 it may also be given as a
mask whose set bits come first.
-/

namespace LinkState

/-- An IPv4 address and the length of its network part. -/
structure Ipv4Network where
  address : Ipv4
  length : Nat
  deriving DecidableEq, Repr

/-- An IPv6 address and the length of its network part. -/
structure Ipv6Network where
  address : Ipv6
  length : Nat
  deriving DecidableEq, Repr

/-- The number of leading set bits of a mask, if no set bit follows a clear
one. -/
def Ipv4.maskLength? (mask : Ipv4) : Option Nat :=
  (List.range 33).find? fun length => mask.toNat = 0x100000000 - 1 <<< (32 - length)

/-- A length in decimal, up to the size of an address. -/
def lengthUpTo? (size : Nat) (chars : List Char) : Option Nat :=
  (Text.decimal? 255 chars).filter (· ≤ size)

namespace Ipv4Network

def ofText? (text : String) : Option Ipv4Network :=
  match Text.fields '/' text.toList with
  | [address] => do return ⟨← Ipv4.ofChars? address, 32⟩
  | [address, length] => do
      let address ← Ipv4.ofChars? address
      match Ipv4.ofChars? length with
      | some mask => return ⟨address, ← mask.maskLength?⟩
      | none => return ⟨address, ← lengthUpTo? 32 length⟩
  | _ => none

def text (network : Ipv4Network) : String :=
  network.address.text ++ "/" ++ toString network.length

end Ipv4Network

namespace Ipv6Network

def ofText? (text : String) : Option Ipv6Network :=
  match Text.fields '/' text.toList with
  | [address] => do return ⟨← Ipv6.ofChars? address, 128⟩
  | [address, length] => do return ⟨← Ipv6.ofChars? address, ← lengthUpTo? 128 length⟩
  | _ => none

def text (network : Ipv6Network) : String :=
  network.address.text ++ "/" ++ toString network.length

end Ipv6Network

end LinkState
