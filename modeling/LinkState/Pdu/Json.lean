import LinkState.Address.Network
import LinkState.Json.Record
import LinkState.Pdu.Basic
import LinkState.Pdu.FlagsText

/-!
# Protocol data units as JSON

The fields of a PDU are written as records.  Octets and identifiers are arrays
of numbers, addresses and flags are texts.  The octets of an LSP and its base
time are not part of its record: an LSP that is read from one has neither.
-/

namespace LinkState

open Json (Slot)

/-! ### Identifiers -/

namespace SystemId

def toJson (id : SystemId) : Json :=
  Json.octets id.toOctets

/-- Reads a system ID from exactly six octets. -/
def ofJson? (json : Json) : Option SystemId := do
  ofOctets? (← json.toList? Json.toU8?)

end SystemId

namespace NodeId

def toJson (id : NodeId) : Json :=
  Json.record [("system_id", id.system.toJson), ("pseudonode", .natural id.pseudonode.toNat)]

def ofJson? (json : Json) : Option NodeId := do
  match ← json.slots? ["system_id", "pseudonode"] with
  | [system, pseudonode] =>
      return ⟨← system.required SystemId.ofJson?, ← pseudonode.required Json.toU8?⟩
  | _ => none

end NodeId

namespace LspId

def toJson (id : LspId) : Json :=
  Json.record [("system_id", id.system.toJson), ("pseudonode", .natural id.pseudonode.toNat),
    ("fragment", .natural id.fragment.toNat)]

def ofJson? (json : Json) : Option LspId := do
  match ← json.slots? ["system_id", "pseudonode", "fragment"] with
  | [system, pseudonode, fragment] =>
      return ⟨← system.required SystemId.ofJson?, ← pseudonode.required Json.toU8?,
        ← fragment.required Json.toU8?⟩
  | _ => none

end LspId

/-! ### Addresses -/

namespace Ipv4

def toJson (address : Ipv4) : Json :=
  .text address.text

def ofJson? (json : Json) : Option Ipv4 := do
  ofChars? (← json.toText?).toList

end Ipv4

namespace Ipv6

def toJson (address : Ipv6) : Json :=
  .text address.text

def ofJson? (json : Json) : Option Ipv6 := do
  ofChars? (← json.toText?).toList

end Ipv6

/-! ### Fields -/

namespace Tlv

/-- A field of several values: a record with one member. -/
def listToJson {α : Type} (f : α → Json) (values : List α) : Json :=
  Json.record [("list", Json.list f values)]

def listOfJson? {α : Type} (read : Json → Option α) (json : Json) : Option (List α) := do
  match ← json.slots? ["list"] with
  | [list] => list.required (Json.toList? read)
  | _ => none

def areaToJson (address : AreaAddress) : Json :=
  Json.octets address

/-- Reads an area address, which may have any length. -/
def areaOfJson? (json : Json) : Option AreaAddress :=
  json.toList? Json.toU8?

def octetToJson (octet : UInt8) : Json :=
  .natural octet.toNat

def hostnameToJson (hostname : String) : Json :=
  Json.record [("hostname", .text hostname)]

def hostnameOfJson? (json : Json) : Option String := do
  match ← json.slots? ["hostname"] with
  | [hostname] => hostname.required Json.toText?
  | _ => none

/-- The value of an uninterpreted field: octets, or a text that stands for its
own octets. -/
def valueOfJson? : Json → Option Octets
  | .string value => value.map hostnameOctets
  | json => json.toList? Json.toU8?

end Tlv

namespace PurgeOriginator

def toJson (originator : PurgeOriginator) : Json :=
  Json.record [("system_id", originator.system.toJson),
    ("system_id_rcvd", Json.option SystemId.toJson originator.receivedFrom)]

def ofJson? (json : Json) : Option PurgeOriginator := do
  match ← json.slots? ["system_id", "system_id_rcvd"] with
  | [system, receivedFrom] =>
      return ⟨← system.required SystemId.ofJson?, ← receivedFrom.optional SystemId.ofJson?⟩
  | _ => none

end PurgeOriginator

namespace Neighbor

def toJson (neighbor : Neighbor) : Json :=
  Json.record [("neighbor", neighbor.node.toJson), ("metric", .natural neighbor.metric.toNat)]

/-- Reads a neighbour, with any 32-bit metric. -/
def ofJson? (json : Json) : Option Neighbor := do
  match ← json.slots? ["neighbor", "metric"] with
  | [node, metric] => return ⟨← node.required NodeId.ofJson?, ← metric.required Json.toU32?⟩
  | _ => none

end Neighbor

namespace UnknownTlv

def toJson (tlv : UnknownTlv) : Json :=
  Json.record [("tlv_type", .natural tlv.code.toNat), ("length", .natural tlv.length.toNat),
    ("value", Json.octets tlv.value)]

/-- Reads a field that is not interpreted; its length need not fit its value. -/
def ofJson? (json : Json) : Option UnknownTlv := do
  match ← json.slots? ["tlv_type", "length", "value"] with
  | [code, length, value] =>
      return ⟨← code.required Json.toU8?, ← length.required Json.toU8?,
        ← value.required Tlv.valueOfJson?⟩
  | _ => none

end UnknownTlv

namespace LspSummary

def toJson (summary : LspSummary) : Json :=
  Json.record [("rem_lifetime", .natural summary.lifetime.toNat), ("lsp_id", summary.id.toJson),
    ("seqno", .natural summary.seqno.toNat), ("cksum", .natural summary.checksum.toNat)]

def ofJson? (json : Json) : Option LspSummary := do
  match ← json.slots? ["rem_lifetime", "lsp_id", "seqno", "cksum"] with
  | [lifetime, id, seqno, checksum] =>
      return ⟨← lifetime.required Json.toU16?, ← id.required LspId.ofJson?,
        ← seqno.required Json.toU32?, ← checksum.required Json.toU16?⟩
  | _ => none

end LspSummary

namespace LspTlvs

/-- The fields of an LSP, with all keys. -/
def toJson (tlvs : LspTlvs) : Json :=
  Json.record [
    ("protocols_supported", Json.option (Tlv.listToJson Tlv.octetToJson) tlvs.protocols),
    ("area_addrs", Json.list (Tlv.listToJson Tlv.areaToJson) tlvs.areas),
    ("purge_originator_id", Json.option PurgeOriginator.toJson tlvs.purgeOriginator),
    ("hostname", Json.option Tlv.hostnameToJson tlvs.hostname),
    ("ext_is_reach", Json.list (Tlv.listToJson Neighbor.toJson) tlvs.isReach),
    ("ipv4_addrs", Json.list (Tlv.listToJson Ipv4.toJson) tlvs.ipv4),
    ("ipv6_addrs", Json.list (Tlv.listToJson Ipv6.toJson) tlvs.ipv6),
    ("unknown", Json.list UnknownTlv.toJson tlvs.unknown)]

/-- Fields that are absent are empty. -/
def ofJson? (json : Json) : Option LspTlvs := do
  match ← json.slots? ["protocols_supported", "area_addrs", "purge_originator_id", "hostname",
    "ext_is_reach", "ipv4_addrs", "ipv6_addrs", "unknown"] with
  | [protocols, areas, purgeOriginator, hostname, isReach, ipv4, ipv6, unknown] =>
      return {
        protocols := ← protocols.withDefault none (Json.toOption? (Tlv.listOfJson? Json.toU8?))
        areas := ← areas.withDefault [] (Json.toList? (Tlv.listOfJson? Tlv.areaOfJson?))
        purgeOriginator :=
          ← purgeOriginator.withDefault none (Json.toOption? PurgeOriginator.ofJson?)
        hostname := ← hostname.withDefault none (Json.toOption? Tlv.hostnameOfJson?)
        isReach := ← isReach.withDefault [] (Json.toList? (Tlv.listOfJson? Neighbor.ofJson?))
        ipv4 := ← ipv4.withDefault [] (Json.toList? (Tlv.listOfJson? Ipv4.ofJson?))
        ipv6 := ← ipv6.withDefault [] (Json.toList? (Tlv.listOfJson? Ipv6.ofJson?))
        unknown := ← unknown.withDefault [] (Json.toList? UnknownTlv.ofJson?) }
  | _ => none

end LspTlvs

namespace SnpTlvs

/-- The fields of a sequence numbers PDU, with both keys. -/
def toJson (tlvs : SnpTlvs) : Json :=
  Json.record [
    ("lsp_entries", Json.list (Tlv.listToJson LspSummary.toJson) tlvs.entries),
    ("unknown", Json.list UnknownTlv.toJson tlvs.unknown)]

/-- Fields that are absent are empty. -/
def ofJson? (json : Json) : Option SnpTlvs := do
  match ← json.slots? ["lsp_entries", "unknown"] with
  | [entries, unknown] =>
      return ⟨← entries.withDefault [] (Json.toList? (Tlv.listOfJson? LspSummary.ofJson?)),
        ← unknown.withDefault [] (Json.toList? UnknownTlv.ofJson?)⟩
  | _ => none

end SnpTlvs

/-! ### Protocol data units -/

namespace PduType

def toJson (kind : PduType) : Json :=
  .text kind.name

def ofJson? (json : Json) : Option PduType := do
  ofName? (← json.toName?)

end PduType

namespace Header

def toJson (header : Header) : Json :=
  Json.record [("pdu_type", header.kind.toJson),
    ("max_area_addrs", .natural header.maxAreaAddresses.toNat)]

def ofJson? (json : Json) : Option Header := do
  match ← json.slots? ["pdu_type", "max_area_addrs"] with
  | [kind, maxAreaAddresses] =>
      return ⟨← kind.required PduType.ofJson?, ← maxAreaAddresses.required Json.toU8?⟩
  | _ => none

end Header

namespace LspFlags

def toJson (flags : LspFlags) : Json :=
  .text flags.text

def ofJson? (json : Json) : Option LspFlags := do
  ofText? (← json.toText?)

end LspFlags

namespace Lsp

def toJson (lsp : Lsp) : Json :=
  Json.record [("hdr", lsp.header.toJson), ("rem_lifetime", .natural lsp.lifetime.toNat),
    ("lsp_id", lsp.id.toJson), ("seqno", .natural lsp.seqno.toNat),
    ("cksum", .natural lsp.checksum.toNat), ("flags", lsp.flags.toJson),
    ("tlvs", lsp.tlvs.toJson)]

def ofJson? (json : Json) : Option Lsp := do
  match ← json.slots? ["hdr", "rem_lifetime", "lsp_id", "seqno", "cksum", "flags", "tlvs"] with
  | [header, lifetime, id, seqno, checksum, flags, tlvs] =>
      return {
        header := ← header.required Header.ofJson?
        lifetime := ← lifetime.required Json.toU16?
        id := ← id.required LspId.ofJson?
        seqno := ← seqno.required Json.toU32?
        checksum := ← checksum.required Json.toU16?
        flags := ← flags.required LspFlags.ofJson?
        tlvs := ← tlvs.required LspTlvs.ofJson?
        raw := []
        baseTime := none }
  | _ => none

end Lsp

namespace Snp

/-- A range of LSP IDs: an array of two. -/
def rangeToJson (range : LspId × LspId) : Json :=
  .array [range.1.toJson, range.2.toJson]

def rangeOfJson? : Json → Option (LspId × LspId)
  | .array [start, stop] => return (← LspId.ofJson? start, ← LspId.ofJson? stop)
  | _ => none

def toJson (snp : Snp) : Json :=
  Json.record [("hdr", snp.header.toJson), ("source", snp.source.toJson),
    ("summary", Json.option rangeToJson snp.range), ("tlvs", snp.tlvs.toJson)]

/-- Reads a sequence numbers PDU, whose range may be absent. -/
def ofJson? (json : Json) : Option Snp := do
  match ← json.slots? ["hdr", "source", "summary", "tlvs"] with
  | [header, source, range, tlvs] =>
      return ⟨← header.required Header.ofJson?, ← source.required NodeId.ofJson?,
        ← range.optional rangeOfJson?, ← tlvs.required SnpTlvs.ofJson?⟩
  | _ => none

end Snp

namespace Pdu

/-- A PDU under the name of its kind. -/
def toJson : Pdu → Json
  | lsp pdu => Json.record [("Lsp", pdu.toJson)]
  | snp pdu => Json.record [("Snp", pdu.toJson)]

/-- Reads a PDU; its kind is the only key. -/
def ofJson? : Json → Option Pdu
  | .object [(some "Lsp", pdu)] => (Lsp.ofJson? pdu).map lsp
  | .object [(some "Snp", pdu)] => (Snp.ofJson? pdu).map snp
  | _ => none

end Pdu

namespace DecodeError

def name : DecodeError → String
  | incompletePdu => "IncompletePdu"
  | headerLength _ => "InvalidHeaderLength"
  | discriminator _ => "InvalidIrdpDiscriminator"
  | version _ => "InvalidVersion"
  | idLength _ => "InvalidIdLength"
  | unknownType _ => "UnknownPduType"
  | unsupportedType _ => "UnsupportedPduType"
  | pduLength _ => "InvalidPduLength"
  | tlvLength _ => "InvalidTlvLength"
  | areaAddressLength _ => "InvalidAreaAddrLen"
  | systemIdCount _ => "InvalidNumSystemIds"

/-- The value that an error complains about. -/
def argument : DecodeError → Json
  | incompletePdu => .null
  | headerLength value | discriminator value | version value | idLength value
  | unknownType value | tlvLength value | areaAddressLength value | systemIdCount value =>
      .natural value.toNat
  | unsupportedType kind => kind.toJson
  | pduLength value => .natural value.toNat

/-- An error: its name, or its name with the value it complains about. -/
def toJson (error : DecodeError) : Json :=
  match error with
  | incompletePdu => .text error.name
  | _ => Json.record [(error.name, error.argument)]

end DecodeError

end LinkState
