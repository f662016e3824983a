import LinkState.Address.V6
import LinkState.Identifier
import LinkState.Pdu.DecodeError
import LinkState.Text.Utf8

/-!
# Type-length-value fields

After its fixed header a PDU is a sequence of fields, each a type octet, a
length octet and as many octets of value.  A string is first taken apart into
such fields: what remains when a field does not fit is reported with the length
that it asks for, and a single octet at the end is ignored.  The values of the
known types have readers and writers of their own here.
-/

namespace LinkState

abbrev AreaAddress := Octets

/-- A neighbour and the cost of reaching it. -/
structure Neighbor where
  node : NodeId
  metric : UInt32
  deriving DecidableEq, Repr

/-- Who purged an LSP, and from whom the purge was received. -/
structure PurgeOriginator where
  system : SystemId
  receivedFrom : Option SystemId
  deriving DecidableEq, Repr

/-- What a sequence numbers PDU says about an LSP. -/
structure LspSummary where
  lifetime : UInt16
  id : LspId
  seqno : UInt32
  checksum : UInt16
  deriving DecidableEq, Repr

/-- A field of a type that is not interpreted. -/
structure UnknownTlv where
  code : UInt8
  length : UInt8
  value : Octets
  deriving DecidableEq, Repr

namespace Tlv

/-! ### Types -/

def areas : UInt8 := 1

def lspEntries : UInt8 := 9

def purgeOriginator : UInt8 := 13

def isReach : UInt8 := 22

def protocols : UInt8 := 129

def ipv4 : UInt8 := 132

def hostname : UInt8 := 137

def ipv6 : UInt8 := 232

/-- The length of type and length octets. -/
def headerSize : Nat := 2

def total {α : Type} (size : α → Nat) : List α → Nat
  | [] => 0
  | item :: items => size item + total size items

def maxLength : Nat := 255

def maxMetric : UInt32 := 0xFFFFFF

def maxAreaLength : Nat := 13

/-! ### Fields -/

/-- A field: type, length and value.  The length octet holds the length of the
value modulo 256. -/
def field (code : UInt8) (value : Octets) : Octets :=
  code :: UInt8.ofNat value.length :: value

/-- A field that was read, not interpreted yet. -/
structure Raw where
  code : UInt8
  length : UInt8
  value : Octets
  deriving DecidableEq, Repr

/-- The fields of an octet string, and the length asked for by the field that
does not fit, if there is one. -/
def split (octets : Octets) : List Raw × Option UInt8 :=
  match octets with
  | code :: length :: rest =>
      if rest.length < length.toNat then ([], some length)
      else
        let (fields, misfit) := split (rest.drop length.toNat)
        (⟨code, length, rest.take length.toNat⟩ :: fields, misfit)
  | _ => ([], none)
termination_by octets.length
decreasing_by simp only [List.length_drop, List.length_cons]; omega

/-- Reads the fields one after the other; a field that does not fit is an error
once the fields before it are read. -/
def readAll {α : Type} (read : α → Raw → Except DecodeError α) (start : α) (octets : Octets) :
    Except DecodeError α :=
  let (fields, misfit) := split octets
  match fields.foldlM read start with
  | .error e => .error e
  | .ok result =>
      match misfit with
      | some length => .error (.tlvLength length)
      | none => .ok result

def Raw.unknown (raw : Raw) : UnknownTlv :=
  ⟨raw.code, raw.length, raw.value⟩

/-! ### Values -/

/-- An area address with its length in front. -/
def areaOctets (address : AreaAddress) : Octets :=
  UInt8.ofNat address.length :: address

/-- The addresses of an area addresses field, whose own length is reported when
the last of them does not fit. -/
def readAreas (fieldLength : UInt8) (value : Octets) : Except DecodeError (List AreaAddress) :=
  match value with
  | [] => .ok []
  | n :: rest =>
      if maxAreaLength < n.toNat then .error (.areaAddressLength n)
      else if rest.length < n.toNat then .error (.tlvLength fieldLength)
      else do
        let more ← readAreas fieldLength (rest.drop n.toNat)
        return rest.take n.toNat :: more
termination_by value.length
decreasing_by simp only [List.length_drop, List.length_cons]; omega

/-- A neighbour without sub-fields.  A metric that is too great is written as
the greatest one. -/
def neighborOctets (neighbor : Neighbor) : Octets :=
  neighbor.node.toOctets ++
    Octets.ofU24 (if maxMetric < neighbor.metric then maxMetric else neighbor.metric) ++ [0]

/-- The length of a neighbour without sub-fields. -/
def neighborSize : Nat := 11

/-- The neighbours of a reachability field.  Their sub-fields are skipped, and
octets too few for a neighbour are ignored. -/
def readNeighbors (value : Octets) : Except DecodeError (List Neighbor) :=
  match value with
  | a :: b :: c :: d :: e :: f :: p :: m :: m' :: m'' :: n :: rest =>
      if rest.length < n.toNat then .error (.tlvLength n)
      else do
        let more ← readNeighbors (rest.drop n.toNat)
        return ⟨⟨⟨a, b, c, d, e, f⟩, p⟩, Octets.word24 m m' m''⟩ :: more
  | _ => .ok []
termination_by value.length
decreasing_by simp only [List.length_drop, List.length_cons]; omega

/-- The number of system IDs, and the system IDs. -/
def purgeOriginatorOctets (originator : PurgeOriginator) : Octets :=
  match originator.receivedFrom with
  | none => 1 :: originator.system.toOctets
  | some other => 2 :: (originator.system.toOctets ++ other.toOctets)

/-- One or two system IDs after their number; what follows them is ignored. -/
def readPurgeOriginator (value : Octets) : Except DecodeError PurgeOriginator := do
  let (count, rest) ← DecodeError.ofReading (Octets.readU8 value)
  if count ≠ 1 ∧ count ≠ 2 then throw (.systemIdCount count)
  let (system, rest) ← DecodeError.ofReading (SystemId.read rest)
  if count = 1 then return ⟨system, none⟩
  let (other, _) ← DecodeError.ofReading (SystemId.read rest)
  return ⟨system, some other⟩

/-- The text of a hostname field, which must not be empty. -/
def readHostname (value : Octets) : Except DecodeError String :=
  if value.isEmpty then .error (.tlvLength 0)
  else .ok (String.ofList (Text.Utf8.decode value))

def hostnameOctets (hostname : String) : Octets :=
  Text.Utf8.encode hostname.toList

def takeIpv4 : Octets → List Ipv4
  | a :: b :: c :: d :: rest => ⟨a, b, c, d⟩ :: takeIpv4 rest
  | _ => []

/-- The IPv4 addresses of a field, which holds nothing else. -/
def readIpv4 (fieldLength : UInt8) (value : Octets) : Except DecodeError (List Ipv4) :=
  if value.length % 4 ≠ 0 then .error (.tlvLength fieldLength) else .ok (takeIpv4 value)

def takeIpv6 : Octets → List Ipv6
  | a :: b :: c :: d :: e :: f :: g :: h :: i :: j :: k :: l :: m :: n :: o :: p :: rest =>
      ⟨Octets.word16 a b, Octets.word16 c d, Octets.word16 e f, Octets.word16 g h,
        Octets.word16 i j, Octets.word16 k l, Octets.word16 m n, Octets.word16 o p⟩ ::
        takeIpv6 rest
  | _ => []

/-- The IPv6 addresses of a field, which holds nothing else. -/
def readIpv6 (fieldLength : UInt8) (value : Octets) : Except DecodeError (List Ipv6) :=
  if value.length % 16 ≠ 0 then .error (.tlvLength fieldLength) else .ok (takeIpv6 value)

/-- The octets of a summary: lifetime, LSP ID, sequence number, checksum. -/
def summaryOctets (summary : LspSummary) : Octets :=
  Octets.ofU16 summary.lifetime ++ summary.id.toOctets ++ Octets.ofU32 summary.seqno ++
    Octets.ofU16 summary.checksum

def summarySize : Nat := 16

def takeSummaries : Octets → List LspSummary
  | t :: t' :: a :: b :: c :: d :: e :: f :: p :: n :: s :: s' :: s'' :: s''' :: k :: k' :: rest =>
      ⟨Octets.word16 t t', ⟨⟨a, b, c, d, e, f⟩, p, n⟩, Octets.word32 s s' s'' s''',
        Octets.word16 k k'⟩ :: takeSummaries rest
  | _ => []

/-- The summaries of a field, which holds nothing else. -/
def readSummaries (fieldLength : UInt8) (value : Octets) : Except DecodeError (List LspSummary) :=
  if value.length % summarySize ≠ 0 then .error (.tlvLength fieldLength)
  else .ok (takeSummaries value)

/-- The octets of a field that is not interpreted: its length octet is the one
it was given, whatever the value. -/
def unknownOctets (tlv : UnknownTlv) : Octets :=
  tlv.code :: tlv.length :: tlv.value

end Tlv

end LinkState
