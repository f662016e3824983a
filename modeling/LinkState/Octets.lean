/-!
# Octet strings

Every protocol data unit is a string of octets.  Numbers of several octets
travel in network order, the most significant octet first.  A reader takes a
field off the front and returns what is left; when the string is too short it
says how many octets the field needs and how many there are, and takes
nothing.
-/

namespace LinkState

abbrev Octets := List UInt8

/-- A field needs more octets than there are. -/
structure Shortage where
  requested : Nat
  available : Nat
  deriving DecidableEq, Repr

namespace Octets

/-- The result of reading a field: the value and the octets after it. -/
abbrev Reading (α : Type) := Except Shortage (α × Octets)

/-- The number whose two octets, most significant first, are given. -/
def word16 (a b : UInt8) : UInt16 :=
  UInt16.ofNat (a.toNat * 256 + b.toNat)

def word24 (a b c : UInt8) : UInt32 :=
  UInt32.ofNat ((a.toNat * 256 + b.toNat) * 256 + c.toNat)

def word32 (a b c d : UInt8) : UInt32 :=
  UInt32.ofNat (((a.toNat * 256 + b.toNat) * 256 + c.toNat) * 256 + d.toNat)

def ofU16 (n : UInt16) : Octets :=
  [UInt8.ofNat (n.toNat / 256), UInt8.ofNat n.toNat]

/-- The low 24 bits of a number in network order. -/
def ofU24 (n : UInt32) : Octets :=
  [UInt8.ofNat (n.toNat / 65536), UInt8.ofNat (n.toNat / 256), UInt8.ofNat n.toNat]

def ofU32 (n : UInt32) : Octets :=
  [UInt8.ofNat (n.toNat / 16777216), UInt8.ofNat (n.toNat / 65536),
    UInt8.ofNat (n.toNat / 256), UInt8.ofNat n.toNat]

def readU8 : Octets → Reading UInt8
  | a :: rest => .ok (a, rest)
  | [] => .error ⟨1, 0⟩

def readU16 : Octets → Reading UInt16
  | a :: b :: rest => .ok (word16 a b, rest)
  | short => .error ⟨2, short.length⟩

def readU24 : Octets → Reading UInt32
  | a :: b :: c :: rest => .ok (word24 a b c, rest)
  | short => .error ⟨3, short.length⟩

def readU32 : Octets → Reading UInt32
  | a :: b :: c :: d :: rest => .ok (word32 a b c d, rest)
  | short => .error ⟨4, short.length⟩

/-- Replaces the octets from `offset` on by those of `patch`; octets of the
patch that would fall past the end are dropped. -/
def overwrite (octets : Octets) (offset : Nat) (patch : Octets) : Octets :=
  octets.take offset ++ patch.take (octets.length - offset) ++
    octets.drop (offset + patch.length)

end Octets

end LinkState
