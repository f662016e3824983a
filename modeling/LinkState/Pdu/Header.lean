import LinkState.Pdu.DecodeError

/-!
# The common header

Every protocol data unit starts with the same eight octets: discriminator,
length of the fixed header, two version octets around the ID length and the
type, a reserved octet, and the maximum number of area addresses.
-/

namespace LinkState

/-- What the common header says. -/
structure Header where
  kind : PduType
  maxAreaAddresses : UInt8
  deriving DecidableEq, Repr

namespace Header

def size : Nat := 8

/-- The first octet of every PDU. -/
def discriminator : UInt8 := 0x83

/-- The value of both version octets. -/
def version : UInt8 := 1

def ofKind (kind : PduType) : Header := ⟨kind, 0⟩

/-- The octets of a header.  The ID length is written as zero, which stands
for six octets. -/
def toOctets (header : Header) : Octets :=
  [discriminator, header.kind.headerLength, version, 0, header.kind.code, version, 0,
    header.maxAreaAddresses]

/-- Takes the header off a whole PDU.  The PDU must be at least as long as the
fixed header of its type. -/
def read (pdu : Octets) : Except DecodeError (Header × Octets) :=
  match pdu with
  | d :: length :: v :: idLength :: code :: v' :: _reserved :: areas :: rest =>
      if d ≠ discriminator then .error (.discriminator d)
      else if v ≠ version then .error (.version v)
      else if idLength ≠ 0 ∧ idLength ≠ 6 then .error (.idLength idLength)
      else match PduType.ofCode? (UInt8.ofNat (code.toNat % 32)) with
        | none => .error (.unknownType code)
        | some kind =>
            if length ≠ kind.headerLength then .error (.headerLength length)
            else if pdu.length < length.toNat then .error .incompletePdu
            else if v' ≠ version then .error (.version v')
            else .ok (⟨kind, areas⟩, rest)
  | _ => .error .incompletePdu

end Header

end LinkState
