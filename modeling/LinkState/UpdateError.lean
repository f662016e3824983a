import LinkState.Circuit
import LinkState.Pdu.DecodeError

/-!
# Refused requests

Why the update process refuses a request, and the wording of each cause.  A
refused request leaves the state of the process as it was.
-/

namespace LinkState

/-- Why a request is refused. -/
inductive UpdateError
  | circuitNotFound (circuit : CircuitId)
  | lspNotFound (level : Level) (id : LspId)
  | undecodable (circuit : Option CircuitId) (cause : DecodeError)
  | unexpectedPdu (circuit : Option CircuitId) (kind : PduType)
  | levelMismatch (circuit : Option CircuitId) (level : Level)
  | invertedRange (circuit : CircuitId) (start stop : LspId)
  | foreignLsp (id : LspId)
  | invalidConfig
  deriving DecidableEq, Repr

namespace UpdateError

def message : UpdateError → String
  | circuitNotFound _ => "circuit not found"
  | lspNotFound _ _ => "LSP not found"
  | undecodable _ _ => "failed to decode packet"
  | unexpectedPdu _ _ => "unexpected PDU type"
  | levelMismatch _ _ => "PDU level mismatch"
  | invertedRange _ _ _ => "CSNP start LSP ID is greater than end LSP ID"
  | foreignLsp _ => "self-originated LSP has a foreign System ID"
  | invalidConfig => "invalid configuration"

end UpdateError

end LinkState
