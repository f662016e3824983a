import LinkState.Octets

/-!
# Text as octets

Characters are written in UTF-8.  Reading never fails: an octet sequence that
is not well formed is read with the replacement character in place of each
part that cannot be continued, where a part is as long as the octets can still
be the start of some character.
-/

namespace LinkState.Text.Utf8

def encode (chars : List Char) : Octets :=
  chars.flatMap String.utf8EncodeChar

/-- A character of which some octets have been read: the number of octets to
come, the range of the next one, and the number the octets so far stand for. -/
structure Partial where
  missing : Nat
  low : UInt8
  high : UInt8
  value : Nat
  deriving DecidableEq, Repr

/-- What is read in place of a part that cannot be continued. -/
def replacement : Char := Char.ofNat 0xFFFD

/-- The character that a leading octet begins, when there is one. -/
def begin? (octet : UInt8) : Option Partial :=
  let n := octet.toNat
  if n < 0xC2 then none
  else if n < 0xE0 then some ⟨1, 0x80, 0xBF, n - 0xC0⟩
  else if n = 0xE0 then some ⟨2, 0xA0, 0xBF, 0⟩
  else if n = 0xED then some ⟨2, 0x80, 0x9F, n - 0xE0⟩
  else if n < 0xF0 then some ⟨2, 0x80, 0xBF, n - 0xE0⟩
  else if n = 0xF0 then some ⟨3, 0x90, 0xBF, 0⟩
  else if n < 0xF4 then some ⟨3, 0x80, 0xBF, n - 0xF0⟩
  else if n = 0xF4 then some ⟨3, 0x80, 0x8F, n - 0xF0⟩
  else none

/-- Reads an octet between characters. -/
def start (octet : UInt8) : List Char × Option Partial :=
  if octet.toNat < 0x80 then ([Char.ofNat octet.toNat], none)
  else match begin? octet with
    | some opened => ([], some opened)
    | none => ([replacement], none)

/-- Reads an octet, inside a character or between two. -/
def step (state : Option Partial) (octet : UInt8) : List Char × Option Partial :=
  match state with
  | none => start octet
  | some opened =>
      if opened.low ≤ octet ∧ octet ≤ opened.high then
        let value := opened.value * 64 + (octet.toNat - 0x80)
        if opened.missing ≤ 1 then ([Char.ofNat value], none)
        else ([], some ⟨opened.missing - 1, 0x80, 0xBF, value⟩)
      else
        let (chars, next) := start octet
        (replacement :: chars, next)

/-- The characters read from a state on. -/
def decodeFrom (state : Option Partial) : Octets → List Char
  | [] => if state.isSome then [replacement] else []
  | octet :: rest =>
      let (chars, next) := step state octet
      chars ++ decodeFrom next rest

def decode (octets : Octets) : List Char :=
  decodeFrom none octets

end LinkState.Text.Utf8
