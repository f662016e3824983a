import LinkState.Pdu.Checksum
import LinkState.Pdu.Flags
import LinkState.Pdu.Header
import LinkState.Pdu.LspTlvs
import LinkState.Time

/-!
# Link state PDUs

An LSP keeps the octets that it was received as, or encoded to, beside its
fields, and the time at which its remaining lifetime was right.  The remaining
lifetime at a later time is what is left after the whole seconds since then.
-/

namespace LinkState

structure Lsp where
  header : Header
  lifetime : UInt16
  id : LspId
  seqno : UInt32
  checksum : UInt16
  flags : LspFlags
  tlvs : LspTlvs
  raw : Octets
  baseTime : Option Nat
  deriving DecidableEq, Repr

namespace Lsp

def headerSize : Nat := 27

/-- The octets covered by the checksum: all from the LSP ID on. -/
def covered (lsp : Lsp) (checksum : UInt16) : Octets :=
  lsp.id.toOctets ++ Octets.ofU32 lsp.seqno ++ Octets.ofU16 checksum ++ [lsp.flags.bits] ++
    lsp.tlvs.toOctets

/-- The number of octets before the covered ones. -/
def coveredOffset : Nat := 12

def lifetimeOffset : Nat := 10

/-- The checksum of the fields.  A purge is sent without one. -/
def computeChecksum (lsp : Lsp) : UInt16 :=
  if lsp.lifetime = 0 then 0
  else
    let (x, y) := Checksum.octets (lsp.covered 0)
    Octets.word16 x y

/-- The octets of the fields with the given checksum.  The length is written
modulo 65536. -/
def assemble (lsp : Lsp) (checksum : UInt16) : Octets :=
  let covered := lsp.covered checksum
  lsp.header.toOctets ++ Octets.ofU16 (UInt16.ofNat (coveredOffset + covered.length)) ++
    Octets.ofU16 lsp.lifetime ++ covered

/-- The LSP with its octets and its checksum made anew from its fields. -/
def encode (lsp : Lsp) (now : Nat) : Lsp :=
  let checksum := lsp.computeChecksum
  { lsp with checksum := checksum, raw := lsp.assemble checksum, baseTime := some now }

def make (now : Nat) (level : Level) (lifetime : UInt16) (id : LspId) (seqno : UInt32)
    (flags : LspFlags) (tlvs : LspTlvs) : Lsp :=
  encode ⟨.ofKind (.lsp level), lifetime, id, seqno, 0, flags, tlvs, [], none⟩ now

/-- Reads the rest of an LSP after its header.  `pdu` is the whole PDU. -/
def read (now : Nat) (header : Header) (rest pdu : Octets) : Except DecodeError Lsp := do
  let (length, rest) ← DecodeError.ofReading (Octets.readU16 rest)
  if length.toNat ≠ pdu.length then throw (.pduLength length)
  let (lifetime, rest) ← DecodeError.ofReading (Octets.readU16 rest)
  let (id, rest) ← DecodeError.ofReading (LspId.read rest)
  let (seqno, rest) ← DecodeError.ofReading (Octets.readU32 rest)
  let (checksum, rest) ← DecodeError.ofReading (Octets.readU16 rest)
  let (flags, rest) ← DecodeError.ofReading (Octets.readU8 rest)
  let tlvs ← Tlv.readAll LspTlvs.read LspTlvs.empty rest
  return ⟨header, lifetime, id, seqno, checksum, .ofBits flags, tlvs, pdu, some now⟩

def level (lsp : Lsp) : Level :=
  if lsp.header.kind = .lsp2 then .two else .one

/-- Whether the remaining lifetime field is zero: the LSP is a purge. -/
def isExpired (lsp : Lsp) : Bool :=
  lsp.lifetime = 0

/-- Whether the checksum fits the octets.  The checksum zero fits purges and
nothing else. -/
def checksumValid (lsp : Lsp) : Bool :=
  if lsp.checksum = 0 then lsp.lifetime = 0
  else if lsp.raw.length < coveredOffset then false
  else Checksum.balanced (lsp.raw.drop coveredOffset)

def remaining (lsp : Lsp) (now : Nat) : UInt16 :=
  match lsp.baseTime with
  | none => lsp.lifetime
  | some base => UInt16.ofNat (lsp.lifetime.toNat - (now - base) / 1000)

/-- The octets with another remaining lifetime. -/
def rawWithLifetime (lsp : Lsp) (lifetime : UInt16) : Octets :=
  if lsp.raw.length < coveredOffset then lsp.raw
  else lsp.raw.overwrite lifetimeOffset (Octets.ofU16 lifetime)

def summary (lsp : Lsp) (now : Nat) : LspSummary :=
  ⟨lsp.remaining now, lsp.id, lsp.seqno, lsp.checksum⟩

end Lsp

end LinkState
