import LinkState.Pdu.Header
import LinkState.Pdu.Tlv

/-!
# Sequence numbers PDUs

A complete sequence numbers PDU describes the LSPs of a database within a range
of LSP IDs; a partial one describes some LSPs.  Summaries are grouped into
fields of at most fifteen.
-/

namespace LinkState

structure SnpTlvs where
  entries : List (List LspSummary)
  unknown : List UnknownTlv
  deriving DecidableEq, Repr

/-- A sequence numbers PDU, complete if it has a range. -/
structure Snp where
  header : Header
  source : NodeId
  range : Option (LspId × LspId)
  tlvs : SnpTlvs
  deriving DecidableEq, Repr

namespace SnpTlvs

def empty : SnpTlvs := ⟨[], []⟩

/-- The most summaries in one field. -/
def maxPerField : Nat := Tlv.maxLength / Tlv.summarySize

/-- The length of a field with the most summaries. -/
def maxFieldSize : Nat := Tlv.headerSize + maxPerField * Tlv.summarySize

/-- Groups of a size of at least one; the last group may be smaller. -/
def groups {α : Type} (size : Nat) (items : List α) : List (List α) :=
  match items with
  | [] => []
  | item :: rest => (item :: rest.take (size - 1)) :: groups size (rest.drop (size - 1))
termination_by items.length
decreasing_by simp only [List.length_drop, List.length_cons]; omega

/-- The fields that hold the given summaries. -/
def ofSummaries (summaries : List LspSummary) : SnpTlvs :=
  ⟨groups maxPerField summaries, []⟩

def summaries (tlvs : SnpTlvs) : List LspSummary :=
  tlvs.entries.flatten

/-- The most summaries whose fields fit into the given size. -/
def capacity (size : Nat) : Nat :=
  let rest := size % maxFieldSize
  size / maxFieldSize * maxPerField +
    (if Tlv.headerSize + Tlv.summarySize ≤ rest then (rest - Tlv.headerSize) / Tlv.summarySize
    else 0)

def fieldSize (summaries : List LspSummary) : Nat :=
  Tlv.headerSize + summaries.length * Tlv.summarySize

def read (tlvs : SnpTlvs) (raw : Tlv.Raw) : Except DecodeError SnpTlvs :=
  if raw.code = Tlv.lspEntries then do
    let summaries ← Tlv.readSummaries raw.length raw.value
    return { tlvs with entries := tlvs.entries ++ [summaries] }
  else .ok { tlvs with unknown := tlvs.unknown ++ [raw.unknown] }

/-- The octets of the fields that hold summaries; the others are not sent. -/
def toOctets (tlvs : SnpTlvs) : Octets :=
  tlvs.entries.flatMap fun summaries =>
    Tlv.field Tlv.lspEntries (summaries.flatMap Tlv.summaryOctets)

end SnpTlvs

namespace Snp

def completeHeaderSize : Nat := 33

def make (level : Level) (source : NodeId) (range : Option (LspId × LspId)) (tlvs : SnpTlvs) :
    Snp :=
  ⟨.ofKind (if range.isSome then .csnp level else .psnp level), source, range, tlvs⟩

/-- Whether PDUs of a type have a range. -/
def hasRange (kind : PduType) : Bool :=
  kind = .csnp1 || kind = .csnp2

/-- Reads the rest of a sequence numbers PDU after its header.  `pdu` is the
whole PDU. -/
def read (header : Header) (rest pdu : Octets) : Except DecodeError Snp := do
  let (length, rest) ← DecodeError.ofReading (Octets.readU16 rest)
  if length.toNat ≠ pdu.length then throw (.pduLength length)
  let (source, rest) ← DecodeError.ofReading (NodeId.read rest)
  if hasRange header.kind then
    let (start, rest) ← DecodeError.ofReading (LspId.read rest)
    let (stop, rest) ← DecodeError.ofReading (LspId.read rest)
    let tlvs ← Tlv.readAll SnpTlvs.read SnpTlvs.empty rest
    return ⟨header, source, some (start, stop), tlvs⟩
  else
    let tlvs ← Tlv.readAll SnpTlvs.read SnpTlvs.empty rest
    return ⟨header, source, none, tlvs⟩

def rangeOctets : Option (LspId × LspId) → Octets
  | some (start, stop) => start.toOctets ++ stop.toOctets
  | none => []

/-- The octets of a sequence numbers PDU.  The length is written modulo
65536. -/
def toOctets (snp : Snp) : Octets :=
  let body := snp.source.toOctets ++ rangeOctets snp.range ++ snp.tlvs.toOctets
  snp.header.toOctets ++ Octets.ofU16 (UInt16.ofNat (Header.size + 2 + body.length)) ++ body

def level (snp : Snp) : Level :=
  if snp.header.kind = .csnp2 ∨ snp.header.kind = .psnp2 then .two else .one

end Snp

end LinkState
