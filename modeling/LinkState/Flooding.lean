import LinkState.Circuit
import LinkState.Pdu.Tlv

/-!
# Flooding flags

For each circuit, the send routing message flag marks the LSPs that have to be
sent on it, and the send sequence numbers flag those that have to be
acknowledged, each with the summary to acknowledge.  An LSP with the sequence
number zero is never marked for sending, and the flags of an unknown circuit
stay as they are.
-/

namespace LinkState

/-- The two kinds of flags. -/
inductive Flag
  | srm
  | ssn
  deriving DecidableEq, Repr

structure CircuitFlags where
  srm : Table LspId Unit
  ssn : Table LspId LspSummary
  deriving DecidableEq

namespace CircuitFlags

def empty : CircuitFlags := ⟨Table.empty, Table.empty⟩

/-- Sets a flag for the LSP that a summary is about. -/
def set (flags : CircuitFlags) (flag : Flag) (summary : LspSummary) : CircuitFlags :=
  match flag with
  | .srm =>
      if summary.seqno = 0 then flags
      else { flags with srm := flags.srm.insert summary.id () }
  | .ssn => { flags with ssn := flags.ssn.insert summary.id summary }

def clear (flags : CircuitFlags) (flag : Flag) (id : LspId) : CircuitFlags :=
  match flag with
  | .srm => { flags with srm := flags.srm.erase id }
  | .ssn => { flags with ssn := flags.ssn.erase id }

def isSet (flags : CircuitFlags) (flag : Flag) (id : LspId) : Bool :=
  match flag with
  | .srm => flags.srm.contains id
  | .ssn => flags.ssn.contains id

/-- The LSPs for which a flag is set, in ascending order. -/
def marked (flags : CircuitFlags) : Flag → List LspId
  | .srm => flags.srm.keys
  | .ssn => flags.ssn.keys

end CircuitFlags

abbrev Flooding := Table CircuitId CircuitFlags

namespace Flooding

/-- Starts to keep flags for a circuit, if there are none yet. -/
def addCircuit (flooding : Flooding) (circuit : CircuitId) : Flooding :=
  if flooding.contains circuit then flooding else flooding.insert circuit CircuitFlags.empty

def set (flooding : Flooding) (flag : Flag) (summary : LspSummary) (circuit : CircuitId) :
    Flooding :=
  flooding.modify circuit fun flags => flags.set flag summary

def clear (flooding : Flooding) (flag : Flag) (id : LspId) (circuit : CircuitId) : Flooding :=
  flooding.modify circuit fun flags => flags.clear flag id

/-- Changes the flags of all circuits but one, if one is excepted. -/
def mapExcept (flooding : Flooding) (except : Option CircuitId)
    (f : CircuitFlags → CircuitFlags) : Flooding :=
  flooding.map fun circuit flags => if some circuit = except then flags else f flags

def setAll (flooding : Flooding) (flag : Flag) (summary : LspSummary)
    (except : Option CircuitId) : Flooding :=
  flooding.mapExcept except fun flags => flags.set flag summary

def clearAll (flooding : Flooding) (flag : Flag) (id : LspId) (except : Option CircuitId) :
    Flooding :=
  flooding.mapExcept except fun flags => flags.clear flag id

/-- Clears both flags of an LSP on all circuits. -/
def removeLsp (flooding : Flooding) (id : LspId) : Flooding :=
  (flooding.clearAll .srm id none).clearAll .ssn id none

def isSet (flooding : Flooding) (flag : Flag) (circuit : CircuitId) (id : LspId) : Bool :=
  ((flooding.get? circuit).map fun flags => flags.isSet flag id).getD false

def marked (flooding : Flooding) (flag : Flag) (circuit : CircuitId) : List LspId :=
  ((flooding.get? circuit).map fun flags => flags.marked flag).getD []

/-- The summary to acknowledge for an LSP on a circuit. -/
def acknowledgement? (flooding : Flooding) (circuit : CircuitId) (id : LspId) :
    Option LspSummary :=
  (flooding.get? circuit).bind fun flags => flags.ssn.get? id

end Flooding

end LinkState
