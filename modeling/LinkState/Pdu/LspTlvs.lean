import LinkState.Pdu.Tlv

/-!
# The fields of a link state PDU

Fields that may occur once are optional, and those that may be repeated are
lists, in which each field keeps its own list of values.
-/

namespace LinkState

structure LspTlvs where
  protocols : Option (List UInt8)
  areas : List (List AreaAddress)
  purgeOriginator : Option PurgeOriginator
  hostname : Option String
  isReach : List (List Neighbor)
  ipv4 : List (List Ipv4)
  ipv6 : List (List Ipv6)
  unknown : List UnknownTlv
  deriving DecidableEq, Repr

namespace LspTlvs

def empty : LspTlvs := ⟨none, [], none, none, [], [], [], []⟩

def purge (originator : Option PurgeOriginator) (hostname : Option String) : LspTlvs :=
  { empty with purgeOriginator := originator, hostname := hostname }

/-- Whether the fields are acceptable in a purge.  Fields that are not
interpreted are. -/
def allowedInPurge (tlvs : LspTlvs) : Bool :=
  tlvs.protocols.isNone && tlvs.areas.isEmpty && tlvs.isReach.isEmpty && tlvs.ipv4.isEmpty &&
    tlvs.ipv6.isEmpty

/-- Takes in one field.  Of the fields that may occur once, the first purge
originator and the first list of protocols count, and the last hostname. -/
def read (tlvs : LspTlvs) (raw : Tlv.Raw) : Except DecodeError LspTlvs :=
  if raw.code = Tlv.areas then do
    let addresses ← Tlv.readAreas raw.length raw.value
    return { tlvs with areas := tlvs.areas ++ [addresses] }
  else if raw.code = Tlv.purgeOriginator then
    if tlvs.purgeOriginator.isSome then .ok tlvs
    else do
      let originator ← Tlv.readPurgeOriginator raw.value
      return { tlvs with purgeOriginator := some originator }
  else if raw.code = Tlv.hostname then do
    let hostname ← Tlv.readHostname raw.value
    return { tlvs with hostname := some hostname }
  else if raw.code = Tlv.isReach then do
    let neighbors ← Tlv.readNeighbors raw.value
    return { tlvs with isReach := tlvs.isReach ++ [neighbors] }
  else if raw.code = Tlv.protocols then
    .ok (if tlvs.protocols.isSome then tlvs else { tlvs with protocols := some raw.value })
  else if raw.code = Tlv.ipv4 then do
    let addresses ← Tlv.readIpv4 raw.length raw.value
    return { tlvs with ipv4 := tlvs.ipv4 ++ [addresses] }
  else if raw.code = Tlv.ipv6 then do
    let addresses ← Tlv.readIpv6 raw.length raw.value
    return { tlvs with ipv6 := tlvs.ipv6 ++ [addresses] }
  else .ok { tlvs with unknown := tlvs.unknown ++ [raw.unknown] }

def optionOctets {α : Type} (code : UInt8) (value : α → Octets) : Option α → Octets
  | some a => Tlv.field code (value a)
  | none => []

/-- Fields that hold several values each. -/
def listOctets {α : Type} (code : UInt8) (value : α → Octets) (fields : List (List α)) : Octets :=
  fields.flatMap fun values => Tlv.field code (values.flatMap value)

def toOctets (tlvs : LspTlvs) : Octets :=
  listOctets Tlv.areas Tlv.areaOctets tlvs.areas ++
  optionOctets Tlv.protocols id tlvs.protocols ++
  optionOctets Tlv.purgeOriginator Tlv.purgeOriginatorOctets tlvs.purgeOriginator ++
  optionOctets Tlv.hostname Tlv.hostnameOctets tlvs.hostname ++
  listOctets Tlv.ipv4 Ipv4.toOctets tlvs.ipv4 ++
  listOctets Tlv.ipv6 Ipv6.toOctets tlvs.ipv6 ++
  listOctets Tlv.isReach Tlv.neighborOctets tlvs.isReach ++
  tlvs.unknown.flatMap Tlv.unknownOctets

/-! ### Lengths -/

/-- The length of a field whose values have the given sizes. -/
def sizeOf {α : Type} (size : α → Nat) (values : List α) : Nat :=
  Tlv.headerSize + Tlv.total size values

def protocolsSize (protocols : List UInt8) : Nat :=
  Tlv.headerSize + protocols.length

def purgeOriginatorSize (originator : PurgeOriginator) : Nat :=
  Tlv.headerSize + 1 + (if originator.receivedFrom.isSome then 2 else 1) * SystemId.size

def hostnameSize (hostname : String) : Nat :=
  Tlv.headerSize + hostname.utf8ByteSize

def areasSize : List AreaAddress → Nat :=
  sizeOf fun address => 1 + address.length

def isReachSize : List Neighbor → Nat :=
  sizeOf fun _ => Tlv.neighborSize

def ipv4Size : List Ipv4 → Nat :=
  sizeOf fun _ => 4

def ipv6Size : List Ipv6 → Nat :=
  sizeOf fun _ => 16

def unknownSize (tlv : UnknownTlv) : Nat :=
  Tlv.headerSize + tlv.value.length

def size (tlvs : LspTlvs) : Nat :=
  (tlvs.protocols.map protocolsSize).getD 0 +
  (tlvs.purgeOriginator.map purgeOriginatorSize).getD 0 +
  (tlvs.hostname.map hostnameSize).getD 0 + Tlv.total areasSize tlvs.areas +
  Tlv.total isReachSize tlvs.isReach + Tlv.total ipv4Size tlvs.ipv4 +
  Tlv.total ipv6Size tlvs.ipv6 + Tlv.total unknownSize tlvs.unknown

end LspTlvs

end LinkState
