import LinkState.Octets

/-!
# The checksum of a link state PDU

The checksum is that of Fletcher with sums modulo 255: one running sum of the
octets and one of the partial sums.  Its two octets are chosen so that both
sums over the covered octets, the checksum included, come to zero.
-/

namespace LinkState.Checksum

/-- The two running sums modulo 255. -/
structure Sums where
  first : Nat
  second : Nat
  deriving DecidableEq, Repr

def Sums.add (sums : Sums) (octet : UInt8) : Sums :=
  let first := (sums.first + octet.toNat) % 255
  ⟨first, (sums.second + first) % 255⟩

def sums (octets : Octets) : Sums :=
  octets.foldl Sums.add ⟨0, 0⟩

/-- Whether both sums over an octet string are zero. -/
def balanced (octets : Octets) : Bool :=
  sums octets = ⟨0, 0⟩

/-- The two checksum octets for covered octets in which they are still zero.
The checksum starts at the thirteenth of the covered octets. -/
def octets (covered : Octets) : UInt8 × UInt8 :=
  let total := sums covered
  let x := Int.tmod (((covered.length : Int) - 13) * total.first - total.second) 255
  let x := if x ≤ 0 then x + 255 else x
  let y := 510 - total.first - x
  let y := if 255 < y then y - 255 else y
  (UInt8.ofNat x.toNat, UInt8.ofNat y.toNat)

end LinkState.Checksum
