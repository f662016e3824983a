import LinkState.Pdu.Json
import LinkState.UpdateError

/-!
# What is told about the update process

Every notable change, and every refused request, is told as an event with a
severity, a message and named fields.
-/

namespace LinkState

/-- Why a received LSP is not looked at any further. -/
inductive DiscardReason
  | invalidChecksum
  | invalidPurgeTlvs
  deriving DecidableEq, Repr

/-- Why an LSP is purged. -/
inductive PurgeReason
  | expired
  | removed
  | confusion
  | unsupported
  | maxSeqno
  deriving DecidableEq, Repr

inductive LspChange
  | deferred
  | confused
  | installed
  | originated
  | deleted
  | refreshed
  | exhausted
  deriving DecidableEq, Repr

/-- What an event says about an LSP. -/
structure LspMention where
  id : LspId
  seqno : UInt32
  size : Nat
  deriving DecidableEq, Repr

def Lsp.mention (lsp : Lsp) : LspMention :=
  ⟨lsp.id, lsp.seqno, lsp.raw.length⟩

inductive Event
  | started
  | stopped
  | circuitAdded (circuit : Circuit)
  | circuitRemoved
  | electionChanged (pseudonode : UInt8) (election : Option Election)
  | pduReceived (circuit : CircuitId) (pdu : Pdu)
  | lspDiscarded (level : Level) (lsp : LspMention) (reason : DiscardReason)
  | lspChanged (change : LspChange) (level : Level) (lsp : LspMention)
  | lspPurged (level : Level) (lsp : LspMention) (reason : PurgeReason)
  | pagesDiscarded (level : Level) (id : LspId) (count : Nat)
  | pageBuilt (level : Level) (index : Nat) (start stop : LspId)
  | generatorCreated (level : Level) (pseudonode : UInt8)
  | generatorRemoved (level : Level) (pseudonode : UInt8)
  | refused (error : UpdateError)
  deriving DecidableEq

namespace DiscardReason

def name : DiscardReason → String
  | invalidChecksum => "InvalidChecksum"
  | invalidPurgeTlvs => "InvalidPurgeTlvs"

end DiscardReason

namespace PurgeReason

def message : PurgeReason → String
  | expired => "LSP has expired"
  | removed => "LSP no longer exists"
  | confusion => "LSP confusion"
  | unsupported => "pseudonode not supported by this system"
  | maxSeqno => "maximum sequence number reached"

end PurgeReason

namespace LspChange

def message : LspChange → String
  | deferred => "deferring self-originated LSP until DIS election"
  | confused => "LSP confusion detected"
  | installed => "installing LSP"
  | originated => "originating LSP"
  | deleted => "deleting LSP"
  | refreshed => "refreshing LSP"
  | exhausted => "LSP sequence number reached its maximum value"

end LspChange

namespace CircuitType

/-- The name of a circuit type in an event. -/
def name : CircuitType → String
  | broadcast => "Broadcast"
  | pointToPoint => "PointToPoint"

end CircuitType

namespace Event

/-- The severity of an event: refused requests are warnings. -/
def severity : Event → String
  | refused .invalidConfig => "ERROR"
  | refused _ => "WARN"
  | _ => "DEBUG"

def message : Event → String
  | started => "starting update process"
  | stopped => "stopping update process"
  | circuitAdded _ => "circuit added"
  | circuitRemoved => "circuit deleted"
  | electionChanged _ _ => "DIS change"
  | pduReceived _ _ => "PDU"
  | lspDiscarded _ _ _ => "discarding LSP"
  | lspChanged change _ _ => change.message
  | lspPurged _ _ _ => "purging LSP"
  | pagesDiscarded _ _ _ => "invalidating CSNP cache"
  | pageBuilt _ _ _ _ => "building CSNP page"
  | generatorCreated _ _ => "LSP generator created"
  | generatorRemoved _ _ => "LSP generator deleted"
  | refused error => error.message

def number (n : Nat) : Json := .text (toString n)

/-- The fields that say which LSP an event is about. -/
def lspFields (level : Level) (lsp : LspMention) : List (String × Json) :=
  [("level", .text level.text), ("lsp_id", .text lsp.id.text), ("seqno", number lsp.seqno.toNat)]

def errorFields : UpdateError → List (String × Json)
  | .circuitNotFound circuit => [("circuit", number circuit.toNat)]
  | .lspNotFound level id => [("level", .text level.text), ("lsp_id", .text id.text)]
  | .undecodable _ cause => [("error", .text cause.message)]
  | .unexpectedPdu _ kind => [("pdu_type", .text kind.name)]
  | .levelMismatch _ level => [("level", .text level.text)]
  | .invertedRange _ start stop => [("start", .text start.text), ("end", .text stop.text)]
  | .foreignLsp id => [("lsp_id", .text id.text)]
  | .invalidConfig => []

def electionFields : Option Election → List (String × Json)
  | some election =>
      [("circuit", number election.circuit.toNat), ("elected", .text (toString election.elected)),
        ("neighbors", .text (",".intercalate (election.neighbors.keys.map SystemId.text)))]
  | none => [("elected", .text "none")]

/-- The fields of an event.  All are texts but the content of a received PDU. -/
def fields : Event → List (String × Json)
  | started | stopped | circuitRemoved => []
  | circuitAdded circuit =>
      [("name", .text circuit.name), ("circuit_type", .text circuit.kind.name)]
  | electionChanged pseudonode election =>
      ("pseudonode", number pseudonode.toNat) :: electionFields election
  | pduReceived circuit pdu => [("circuit", number circuit.toNat), ("data", pdu.toJson)]
  | lspDiscarded level lsp reason => lspFields level lsp ++ [("reason", .text reason.name)]
  | lspChanged _ level lsp => lspFields level lsp ++ [("len", number lsp.size)]
  | lspPurged level lsp reason =>
      lspFields level lsp ++ [("len", number lsp.size), ("reason", .text reason.message)]
  | pagesDiscarded level id count =>
      [("level", .text level.text), ("lsp_id", .text id.text), ("pages", number count)]
  | pageBuilt level index start stop =>
      [("level", .text level.text), ("idx", number index), ("start", .text start.text),
        ("end", .text stop.text)]
  | generatorCreated level pseudonode | generatorRemoved level pseudonode =>
      [("level", .text level.text), ("pseudonode", number pseudonode.toNat)]
  | refused error => errorFields error

end Event

end LinkState
