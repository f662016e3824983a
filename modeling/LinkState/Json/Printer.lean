import LinkState.Json.Value
import LinkState.Text.Hex

/-!
# Printing JSON

A value is printed on one line with no blanks.  Inside strings the quote, the
backslash and the control characters are escaped, and all else is printed as
it is.
-/

namespace LinkState.Json

/-- A character inside a string. -/
def escaped (c : Char) : String :=
  if c = '"' then "\\\""
  else if c = '\\' then "\\\\"
  else if c.toNat < 0x20 then
    "\\u00" ++ String.ofList (Text.hexOctet (UInt8.ofNat c.toNat))
  else String.ofList [c]

def quoted (text : String) : String :=
  "\"" ++ String.join (text.toList.map escaped) ++ "\""

/-- A string, null if it stands for no text. -/
def quoted? : Option String → String
  | some text => quoted text
  | none => "null"

mutual

def render : Json → String
  | .null => "null"
  | .bool true => "true"
  | .bool false => "false"
  | .natural value => toString value
  | .otherNumber literal => literal
  | .string value => quoted? value
  | .array items => "[" ++ ",".intercalate (renderItems items) ++ "]"
  | .object members => "\x7b" ++ ",".intercalate (renderMembers members) ++ "\x7d"

def renderItems : List Json → List String
  | [] => []
  | item :: items => render item :: renderItems items

def renderMembers : List (Option String × Json) → List String
  | [] => []
  | (key, value) :: members => (quoted? key ++ ":" ++ render value) :: renderMembers members

end

end LinkState.Json
