import LinkState.Pdu.Flags
import LinkState.Text.Blank
import LinkState.Text.Hex
import LinkState.Text.Number

/-!
# Flags as text

The names of the flags that are set, joined by a bar with a blank on each
side, and at the end the bits without a name as a hexadecimal number.  Reading
takes names and hexadecimal numbers in any order, with blanks around them, and
a text of blanks only for the empty set.
-/

namespace LinkState.LspFlags

def text (flags : LspFlags) : String :=
  let names := (named.filter fun flag => flags.bits &&& flag.2.bits ≠ 0).map (·.1)
  let other := flags.bits &&& 0x70
  let rest := if other = 0 then [] else ["0x" ++ String.ofList (Nat.toDigits 16 other.toNat)]
  " | ".intercalate (names ++ rest)

/-- An octet as a hexadecimal number. -/
def ofHexChars? (chars : List Char) : Option LspFlags :=
  let body := match chars with
    | '+' :: rest => rest
    | other => other
  if body.isEmpty then Option.none
  else ((Text.digits? Text.hexValue? 16 body).filter (· ≤ 0xFF)).map fun n => ⟨UInt8.ofNat n⟩

def flag? : List Char → Option LspFlags
  | '0' :: 'x' :: digits => ofHexChars? digits
  | name => (named.find? fun flag => flag.1.toList = name).map (·.2)

def ofText? (text : String) : Option LspFlags :=
  let chars := Text.trim text.toList
  if chars.isEmpty then some none
  else do
    let flags ← (Text.fields '|' chars).mapM fun field => flag? (Text.trim field)
    return flags.foldl union none

end LinkState.LspFlags
