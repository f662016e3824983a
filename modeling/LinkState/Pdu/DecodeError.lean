import LinkState.Octets
import LinkState.Pdu.Kind

/-!
# Why octets are not a protocol data unit

One constructor for each cause, with the offending value, and the wording of
the cause in one function.
-/

namespace LinkState

/-- Why octets could not be decoded. -/
inductive DecodeError
  | incompletePdu
  | headerLength (length : UInt8)
  | discriminator (value : UInt8)
  | version (value : UInt8)
  | idLength (length : UInt8)
  | unknownType (code : UInt8)
  | unsupportedType (kind : PduType)
  | pduLength (length : UInt16)
  | tlvLength (length : UInt8)
  | areaAddressLength (length : UInt8)
  | systemIdCount (count : UInt8)
  deriving DecidableEq, Repr

namespace DecodeError

def message : DecodeError → String
  | incompletePdu => "incomplete PDU"
  | headerLength length => "invalid header length: " ++ toString length.toNat
  | discriminator value => "invalid IDRP discriminator: " ++ toString value.toNat
  | version value => "invalid version: " ++ toString value.toNat
  | idLength length => "invalid ID length: " ++ toString length.toNat
  | unknownType code => "unknown PDU type: " ++ toString code.toNat
  | unsupportedType kind => "unsupported PDU type: " ++ kind.name
  | pduLength length => "invalid PDU length: " ++ toString length.toNat
  | tlvLength length => "invalid TLV length: " ++ toString length.toNat
  | areaAddressLength length => "invalid area address length: " ++ toString length.toNat
  | systemIdCount count => "invalid number of system IDs: " ++ toString count.toNat

/-- A field that the octets are too short for makes the PDU incomplete. -/
def ofReading {α : Type} : Octets.Reading α → Except DecodeError (α × Octets)
  | .ok result => .ok result
  | .error _ => .error incompletePdu

end DecodeError

end LinkState
