import LinkState.Octets
import LinkState.Text.Hex

/-!
# Identifiers of systems, nodes and link state PDUs

A system ID has six octets.  A node ID adds a pseudonode number, which is zero
for the system itself, and an LSP ID adds a fragment number to that.  LSP IDs
are ordered field by field, the system ID first; this is the order in which
complete sequence numbers PDUs describe a database.
-/

namespace LinkState

structure SystemId where
  o0 : UInt8
  o1 : UInt8
  o2 : UInt8
  o3 : UInt8
  o4 : UInt8
  o5 : UInt8
  deriving DecidableEq, Repr

/-- The identifier of a system, or of a pseudonode that a system represents. -/
structure NodeId where
  system : SystemId
  pseudonode : UInt8
  deriving DecidableEq, Repr

/-- The identifier of a link state PDU. -/
structure LspId where
  system : SystemId
  pseudonode : UInt8
  fragment : UInt8
  deriving DecidableEq, Repr

namespace SystemId

def size : Nat := 6

/-- The system ID of a system that has none configured. -/
def zero : SystemId := ⟨0, 0, 0, 0, 0, 0⟩

def toOctets (id : SystemId) : Octets :=
  [id.o0, id.o1, id.o2, id.o3, id.o4, id.o5]

def read : Octets → Octets.Reading SystemId
  | a :: b :: c :: d :: e :: f :: rest => .ok (⟨a, b, c, d, e, f⟩, rest)
  | short => .error ⟨6, short.length⟩

/-- The system ID that has exactly the given octets. -/
def ofOctets? : Octets → Option SystemId
  | [a, b, c, d, e, f] => some ⟨a, b, c, d, e, f⟩
  | _ => none

/-- Order of system IDs: octet by octet. -/
def Before (x y : SystemId) : Prop :=
  x.o0 < y.o0 ∨ x.o0 = y.o0 ∧ (x.o1 < y.o1 ∨ x.o1 = y.o1 ∧ (x.o2 < y.o2 ∨ x.o2 = y.o2 ∧
    (x.o3 < y.o3 ∨ x.o3 = y.o3 ∧ (x.o4 < y.o4 ∨ x.o4 = y.o4 ∧ x.o5 < y.o5))))

instance : LT SystemId := ⟨Before⟩

instance (x y : SystemId) : Decidable (x < y) :=
  inferInstanceAs (Decidable (x.o0 < y.o0 ∨ _))

/-- The number written by the octets of a system ID in base 256. -/
def toNat (id : SystemId) : Nat :=
  ((((id.o0.toNat * 256 + id.o1.toNat) * 256 + id.o2.toNat) * 256 + id.o3.toNat) * 256 +
    id.o4.toNat) * 256 + id.o5.toNat

/-- The system ID whose octets write the given number, of which the low 48 bits
count. -/
def ofNat (n : Nat) : SystemId :=
  ⟨UInt8.ofNat (n / 0x10000000000), UInt8.ofNat (n / 0x100000000), UInt8.ofNat (n / 0x1000000),
    UInt8.ofNat (n / 0x10000), UInt8.ofNat (n / 0x100), UInt8.ofNat n⟩

/-- A system ID as text: three dotted groups of four digits. -/
def text (id : SystemId) : String :=
  String.ofList (Text.hexOctet id.o0 ++ Text.hexOctet id.o1 ++ '.' :: Text.hexOctet id.o2 ++
    Text.hexOctet id.o3 ++ '.' :: Text.hexOctet id.o4 ++ Text.hexOctet id.o5)

theorem toNat_injective {x y : SystemId} (h : x.toNat = y.toNat) : x = y := by
  rcases x with ⟨a0, a1, a2, a3, a4, a5⟩
  rcases y with ⟨b0, b1, b2, b3, b4, b5⟩
  simp only [toNat] at h
  have := a0.toNat_lt; have := a1.toNat_lt; have := a2.toNat_lt
  have := a3.toNat_lt; have := a4.toNat_lt; have := a5.toNat_lt
  have := b0.toNat_lt; have := b1.toNat_lt; have := b2.toNat_lt
  have := b3.toNat_lt; have := b4.toNat_lt; have := b5.toNat_lt
  simp only [mk.injEq, ← UInt8.toNat_inj]
  omega

end SystemId

namespace NodeId

def toOctets (id : NodeId) : Octets :=
  id.system.toOctets ++ [id.pseudonode]

def read : Octets → Octets.Reading NodeId
  | a :: b :: c :: d :: e :: f :: p :: rest => .ok (⟨⟨a, b, c, d, e, f⟩, p⟩, rest)
  | short => .error ⟨7, short.length⟩

def isPseudonode (id : NodeId) : Bool :=
  id.pseudonode != 0

/-- A node ID as text: the system ID, a dot and the pseudonode number. -/
def text (id : NodeId) : String :=
  id.system.text ++ String.ofList ('.' :: Text.hexOctet id.pseudonode)

end NodeId

namespace LspId

def first : LspId := ⟨SystemId.zero, 0, 0⟩

def last : LspId := ⟨⟨255, 255, 255, 255, 255, 255⟩, 255, 255⟩

def toOctets (id : LspId) : Octets :=
  id.system.toOctets ++ [id.pseudonode, id.fragment]

def read : Octets → Octets.Reading LspId
  | a :: b :: c :: d :: e :: f :: p :: n :: rest => .ok (⟨⟨a, b, c, d, e, f⟩, p, n⟩, rest)
  | short => .error ⟨8, short.length⟩

/-- The node that the LSP describes. -/
def node (id : LspId) : NodeId :=
  ⟨id.system, id.pseudonode⟩

/-- The given fragment of the LSP of a node. -/
def ofNode (node : NodeId) (fragment : UInt8) : LspId :=
  ⟨node.system, node.pseudonode, fragment⟩

def isPseudonode (id : LspId) : Bool :=
  id.pseudonode != 0

/-- Order of LSP IDs: by system ID, then pseudonode, then fragment. -/
def Before (x y : LspId) : Prop :=
  x.system < y.system ∨ x.system = y.system ∧ (x.pseudonode < y.pseudonode ∨
    x.pseudonode = y.pseudonode ∧ x.fragment < y.fragment)

instance : LT LspId := ⟨Before⟩

instance (x y : LspId) : Decidable (x < y) :=
  inferInstanceAs (Decidable (x.system < y.system ∨ _))

/-- The 64-bit number written by the octets of an LSP ID. -/
def toNat (id : LspId) : Nat :=
  (id.system.toNat * 256 + id.pseudonode.toNat) * 256 + id.fragment.toNat

/-- The LSP ID whose octets write the given number, of which the low 64 bits
count. -/
def ofNat (n : Nat) : LspId :=
  ⟨SystemId.ofNat (n / 0x10000), UInt8.ofNat (n / 0x100), UInt8.ofNat n⟩

def count : Nat := 0x10000000000000000

/-- The LSP ID right after the given one, unless it is the greatest. -/
def successor? (id : LspId) : Option LspId :=
  if id.toNat + 1 < count then some (ofNat (id.toNat + 1)) else none

/-- An LSP ID as text: the node ID, a dash and the fragment number. -/
def text (id : LspId) : String :=
  id.node.text ++ String.ofList ('-' :: Text.hexOctet id.fragment)

theorem toNat_injective {x y : LspId} (h : x.toNat = y.toNat) : x = y := by
  rcases x with ⟨s, p, f⟩
  rcases y with ⟨s', p', f'⟩
  simp only [toNat] at h
  have := p.toNat_lt; have := f.toNat_lt
  have := p'.toNat_lt; have := f'.toNat_lt
  have hs : s.toNat = s'.toNat := by omega
  simp only [mk.injEq, ← UInt8.toNat_inj, SystemId.toNat_injective hs, true_and]
  omega

end LspId

end LinkState
