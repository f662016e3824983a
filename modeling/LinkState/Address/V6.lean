import LinkState.Address.V4
import LinkState.Text.Hex

/-!
# IPv6 addresses

An address has eight groups of sixteen bits, written in hexadecimal with
colons between them.  Two colons stand for one run of at least one zero group.
Where an address is printed, they stand for the longest run of at least two
zero groups, the first one if several are equally long; an address that embeds
an IPv4 address is printed with that address at its end.
-/

namespace LinkState

structure Ipv6 where
  g0 : UInt16
  g1 : UInt16
  g2 : UInt16
  g3 : UInt16
  g4 : UInt16
  g5 : UInt16
  g6 : UInt16
  g7 : UInt16
  deriving DecidableEq, Repr

namespace Ipv6

def groups (address : Ipv6) : List UInt16 :=
  [address.g0, address.g1, address.g2, address.g3, address.g4, address.g5, address.g6,
    address.g7]

/-- The address with exactly the given groups. -/
def ofGroups? : List UInt16 → Option Ipv6
  | [g0, g1, g2, g3, g4, g5, g6, g7] => some ⟨g0, g1, g2, g3, g4, g5, g6, g7⟩
  | _ => none

def toOctets (address : Ipv6) : Octets :=
  address.groups.flatMap Octets.ofU16

def read : Octets → Octets.Reading Ipv6
  | a :: b :: c :: d :: e :: f :: g :: h :: i :: j :: k :: l :: m :: n :: o :: p :: rest =>
      .ok (⟨Octets.word16 a b, Octets.word16 c d, Octets.word16 e f, Octets.word16 g h,
        Octets.word16 i j, Octets.word16 k l, Octets.word16 m n, Octets.word16 o p⟩, rest)
  | short => .error ⟨16, short.length⟩

/-! ### Printing -/

/-- The digits of a number in base sixteen, without leading zeros. -/
def groupText (group : UInt16) : String :=
  String.ofList ((Nat.toDigits 16 group.toNat))

/-- Groups with colons between them. -/
def joined (groups : List UInt16) : String :=
  ":".intercalate (groups.map groupText)

/-- The number of zero groups in front. -/
def zeros (groups : List UInt16) : Nat :=
  (groups.takeWhile (· = 0)).length

/-- Where the longest run of zero groups starts, the first of equally long
ones, and how long it is. -/
def longestZeros (groups : List UInt16) : Nat × Nat :=
  (List.range groups.length).foldl
    (fun best i =>
      let length := zeros (groups.drop i)
      if best.2 < length then (i, length) else best)
    (0, 0)

/-- The IPv4 address that an address embeds, if it does. -/
def mapped? (address : Ipv6) : Option Ipv4 :=
  match address.toOctets with
  | [0, 0, 0, 0, 0, 0, 0, 0, 0, 0, 255, 255, a, b, c, d] => some ⟨a, b, c, d⟩
  | _ => none

def text (address : Ipv6) : String :=
  match address.mapped? with
  | some embedded => "::ffff:" ++ embedded.text
  | none =>
      let (start, length) := longestZeros address.groups
      if length < 2 then joined address.groups
      else
        joined (address.groups.take start) ++ "::" ++
          joined (address.groups.drop (start + length))

/-! ### Reading -/

/-- A group: one to four hexadecimal digits. -/
def group? (chars : List Char) : Option UInt16 :=
  if chars.isEmpty ∨ 4 < chars.length then none
  else (Text.digits? Text.hexValue? 16 chars).map UInt16.ofNat

/-- The two groups of an IPv4 address at the end of the text. -/
def embedded? (chars : List Char) : Option (List UInt16) :=
  (Ipv4.ofChars? chars).map fun address =>
    [Octets.word16 address.a address.b, Octets.word16 address.c address.d]

/-- The groups of fields, the last of which may be an IPv4 address if
`embedding` allows it. -/
def fieldGroups? (embedding : Bool) : List (List Char) → Option (List UInt16)
  | [] => some []
  | [last] =>
      match group? last with
      | some group => some [group]
      | none => if embedding then embedded? last else none
  | field :: rest => do
      let group ← group? field
      let groups ← fieldGroups? embedding rest
      return group :: groups

/-- The groups on one side of the two colons, where there may be none. -/
def side? (embedding : Bool) (chars : List Char) : Option (List UInt16) :=
  if chars.isEmpty then some [] else fieldGroups? embedding (Text.fields ':' chars)

/-- The characters before and after the first two adjacent colons. -/
def splitGap? : List Char → Option (List Char × List Char)
  | ':' :: ':' :: rest => some ([], rest)
  | c :: rest => (splitGap? rest).map fun (front, back) => (c :: front, back)
  | [] => none

def ofChars? (chars : List Char) : Option Ipv6 :=
  match splitGap? chars with
  | none => do ofGroups? (← fieldGroups? true (Text.fields ':' chars))
  | some (front, back) => do
      let head ← side? false front
      let tail ← side? true back
      if 7 < head.length + tail.length then none
      else ofGroups? (head ++ List.replicate (8 - head.length - tail.length) 0 ++ tail)

end Ipv6

end LinkState
