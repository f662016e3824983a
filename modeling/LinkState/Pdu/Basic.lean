import LinkState.Pdu.Lsp
import LinkState.Pdu.Snp

/-!
# Protocol data units of the update process

A link state PDU or a sequence numbers PDU.  Decoding looks at the common
header first and then reads what the type calls for.
-/

namespace LinkState

inductive Pdu
  | lsp (lsp : Lsp)
  | snp (snp : Snp)
  deriving DecidableEq, Repr

namespace Pdu

def kind : Pdu → PduType
  | lsp pdu => pdu.header.kind
  | snp pdu => pdu.header.kind

/-- Reads a PDU that is received at the given time. -/
def decode (now : Nat) (octets : Octets) : Except DecodeError Pdu := do
  let (header, rest) ← Header.read octets
  match header.kind with
  | .lsp1 | .lsp2 => return lsp (← Lsp.read now header rest octets)
  | .csnp1 | .csnp2 | .psnp1 | .psnp2 => return snp (← Snp.read header rest octets)
  | .helloLan1 | .helloLan2 | .helloPointToPoint => throw (.unsupportedType header.kind)

/-- The octets of a PDU.  Those of an LSP are the ones it holds. -/
def toOctets : Pdu → Octets
  | lsp pdu => pdu.raw
  | snp pdu => pdu.toOctets

end Pdu

end LinkState
