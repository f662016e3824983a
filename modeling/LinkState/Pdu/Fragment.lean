import LinkState.Pdu.LspTlvs

/-!
# Fragments

What a system advertises is first divided into fields of at most 255 octets
each, and the fields are then packed into fragments up to a given length.  The
fields that occur once go into the first fragment, whatever their length; the
others follow as long as there is room, and the first that does not fit closes
the fragment.
-/

namespace LinkState

namespace Tlv

/-- Divides values into fields: a value that does not fit starts the next
field.  `field` holds the values of the current field and `used` their size. -/
def divideFrom {α : Type} (size : α → Nat) (field : List α) (used : Nat) :
    List α → List (List α)
  | [] => if field.isEmpty then [] else [field]
  | value :: values =>
      if maxLength < used + size value then
        field :: divideFrom size [value] (size value) values
      else divideFrom size (field ++ [value]) (used + size value) values

def divide {α : Type} (size : α → Nat) (values : List α) : List (List α) :=
  divideFrom size [] 0 values

/-- The fields that are packed, those that are left, and the room after them. -/
structure Packed (α : Type) where
  taken : List α
  left : List α
  room : Nat

/-- Packs fields from the front while they fit.  The first that does not fit
leaves no room. -/
def pack {α : Type} (size : α → Nat) : List α → Nat → Packed α
  | [], room => ⟨[], [], room⟩
  | field :: fields, room =>
      if size field ≤ room then
        let packed := pack size fields (room - size field)
        { packed with taken := field :: packed.taken }
      else ⟨[], field :: fields, 0⟩

end Tlv

namespace LspTlvs

/-- The fields that advertise the given values. -/
def ofValues (protocols : List UInt8) (areas : List AreaAddress) (hostname : Option String)
    (isReach : List Neighbor) (ipv4 : List Ipv4) (ipv6 : List Ipv6) : LspTlvs where
  protocols := some protocols
  areas := Tlv.divide (fun address => 1 + address.length) areas
  purgeOriginator := none
  hostname := hostname
  isReach := Tlv.divide (fun _ => Tlv.neighborSize) isReach
  ipv4 := Tlv.divide (fun _ => 4) ipv4
  ipv6 := Tlv.divide (fun _ => 16) ipv6
  unknown := []

/-- The fields of the next fragment of at most the given length, and the fields
left for later ones.  There is no next fragment when no field goes into it. -/
def nextFragment (tlvs : LspTlvs) (maxSize : Nat) : Option (LspTlvs × LspTlvs) :=
  let room := maxSize - (tlvs.protocols.map protocolsSize).getD 0
    - (tlvs.purgeOriginator.map purgeOriginatorSize).getD 0
    - (tlvs.hostname.map hostnameSize).getD 0
  let areas := Tlv.pack areasSize tlvs.areas room
  let ipv4 := Tlv.pack ipv4Size tlvs.ipv4 areas.room
  let ipv6 := Tlv.pack ipv6Size tlvs.ipv6 ipv4.room
  let isReach := Tlv.pack isReachSize tlvs.isReach ipv6.room
  let unknown := Tlv.pack unknownSize tlvs.unknown isReach.room
  let fragment : LspTlvs :=
    { tlvs with
      areas := areas.taken, ipv4 := ipv4.taken, ipv6 := ipv6.taken
      isReach := isReach.taken, unknown := unknown.taken }
  let left : LspTlvs :=
    ⟨none, areas.left, none, none, isReach.left, ipv4.left, ipv6.left, unknown.left⟩
  if fragment = empty then none else some (fragment, left)

/-- At most `count` fragments of at most the given length, and the fields left
after them. -/
def fragments (maxSize : Nat) : Nat → LspTlvs → List LspTlvs × LspTlvs
  | 0, tlvs => ([], tlvs)
  | count + 1, tlvs =>
      match tlvs.nextFragment maxSize with
      | none => ([], tlvs)
      | some (fragment, left) =>
          let (more, rest) := fragments maxSize count left
          (fragment :: more, rest)

end LspTlvs

end LinkState
