import LinkState.Json.Value
import LinkState.Text.Hex

/-!
# Reading JSON

The grammar is that of strict JSON, and nothing more is accepted: no comments, no
trailing commas, no leading zeros, no control characters inside strings.  The
readers take characters off the front of a list and return what is left; the
nesting of a text is bounded by its length, which serves as fuel.
-/

namespace LinkState.Json

def skipBlanks : List Char → List Char
  | ' ' :: rest | '\n' :: rest | '\r' :: rest | '\t' :: rest => skipBlanks rest
  | other => other

/-- The number written by four hexadecimal digits. -/
def unit? (a b c d : Char) : Option Nat := do
  let a ← Text.hexValue? a
  let b ← Text.hexValue? b
  let c ← Text.hexValue? c
  let d ← Text.hexValue? d
  return ((a * 16 + b) * 16 + c) * 16 + d

/-- The character of an escape of one letter. -/
def escape? : Char → Option Char
  | '"' => some '"'
  | '\\' => some '\\'
  | '/' => some '/'
  | 'b' => some '\x08'
  | 'f' => some '\x0c'
  | 'n' => some '\n'
  | 'r' => some '\r'
  | 't' => some '\t'
  | _ => none

/-- Whether a number is the first half of a surrogate pair. -/
def isHighHalf (unit : Nat) : Bool :=
  0xD800 ≤ unit && unit < 0xDC00

/-- Whether a number is the second half of a surrogate pair. -/
def isLowHalf (unit : Nat) : Bool :=
  0xDC00 ≤ unit && unit < 0xE000

/-- The character of a surrogate pair. -/
def pairChar (high low : Nat) : Char :=
  Char.ofNat (0x10000 + (high - 0xD800) * 1024 + (low - 0xDC00))

/-- The characters so far, which stand for no text if a first half of a pair
is left waiting. -/
def settled (done : Option (List Char)) (high : Option Nat) : Option (List Char) :=
  if high.isSome then none else done

/-- The rest of a string after its opening quote.  The characters so far are
in reverse, and none once half of a pair has been seen on its own; `high` is a
first half that waits for the second. -/
def readString (done : Option (List Char)) (high : Option Nat) :
    List Char → Option (Option String × List Char)
  | '"' :: rest =>
      some ((settled done high).map fun chars => String.ofList chars.reverse, rest)
  | '\\' :: 'u' :: a :: b :: c :: d :: rest =>
      match unit? a b c d, high with
      | none, _ => none
      | some unit, some first =>
          if isLowHalf unit then readString (done.map (pairChar first unit :: ·)) none rest
          else if isHighHalf unit then readString none (some unit) rest
          else readString none none rest
      | some unit, none =>
          if isLowHalf unit then readString none none rest
          else if isHighHalf unit then readString done (some unit) rest
          else readString (done.map (Char.ofNat unit :: ·)) none rest
  | '\\' :: c :: rest =>
      match escape? c with
      | some char => readString ((settled done high).map (char :: ·)) none rest
      | none => none
  | c :: rest =>
      if c.toNat < 0x20 then none
      else readString ((settled done high).map (c :: ·)) none rest
  | [] => none

def isDigit (c : Char) : Bool :=
  '0' ≤ c && c ≤ '9'

/-- The digits in front, of which there must be one. -/
def readDigits (chars : List Char) : Option (List Char × List Char) :=
  let digits := chars.takeWhile isDigit
  if digits.isEmpty then none else some (digits, chars.dropWhile isDigit)

/-- The whole part of a number: a zero, or digits that do not start with one. -/
def readWhole : List Char → Option (List Char × List Char)
  | '0' :: rest => if (rest.head?.map isDigit).getD false then none else some (['0'], rest)
  | chars => readDigits chars

def readFraction : List Char → Option (List Char × List Char)
  | '.' :: rest => (readDigits rest).map fun (digits, rest) => ('.' :: digits, rest)
  | chars => some ([], chars)

def readExponent : List Char → Option (List Char × List Char)
  | e :: rest =>
      if e = 'e' ∨ e = 'E' then
        match rest with
        | '+' :: rest => (readDigits rest).map fun (digits, rest) => (e :: '+' :: digits, rest)
        | '-' :: rest => (readDigits rest).map fun (digits, rest) => (e :: '-' :: digits, rest)
        | _ => (readDigits rest).map fun (digits, rest) => (e :: digits, rest)
      else some ([], e :: rest)
  | [] => some ([], [])

def readNumber (chars : List Char) : Option (Json × List Char) := do
  let (sign, rest) := match chars with
    | '-' :: rest => (['-'], rest)
    | _ => ([], chars)
  let (whole, rest) ← readWhole rest
  let (fraction, rest) ← readFraction rest
  let (exponent, rest) ← readExponent rest
  if sign.isEmpty && fraction.isEmpty && exponent.isEmpty then
    return (.natural (whole.foldl (fun n c => n * 10 + (c.toNat - '0'.toNat)) 0), rest)
  else
    return (.otherNumber (String.ofList (sign ++ whole ++ fraction ++ exponent)), rest)

mutual

/-- A value, from its first character on. -/
def readValue (fuel : Nat) (chars : List Char) : Option (Json × List Char) :=
  match fuel with
  | 0 => none
  | fuel + 1 =>
      match chars with
      | 'n' :: 'u' :: 'l' :: 'l' :: rest => some (.null, rest)
      | 't' :: 'r' :: 'u' :: 'e' :: rest => some (.bool true, rest)
      | 'f' :: 'a' :: 'l' :: 's' :: 'e' :: rest => some (.bool false, rest)
      | '"' :: rest =>
          (readString (some []) none rest).map fun (value, rest) => (.string value, rest)
      | '[' :: rest =>
          match skipBlanks rest with
          | ']' :: rest => some (.array [], rest)
          | rest => (readItems fuel rest).map fun (items, rest) => (.array items, rest)
      | '{' :: rest =>
          match skipBlanks rest with
          | '}' :: rest => some (.object [], rest)
          | rest => (readMembers fuel rest).map fun (members, rest) => (.object members, rest)
      | _ => readNumber chars

/-- The items of an array, at least one, and its closing bracket. -/
def readItems (fuel : Nat) (chars : List Char) : Option (List Json × List Char) :=
  match fuel with
  | 0 => none
  | fuel + 1 => do
      let (item, rest) ← readValue fuel chars
      match skipBlanks rest with
      | ']' :: rest => return ([item], rest)
      | ',' :: rest =>
          let (items, rest) ← readItems fuel (skipBlanks rest)
          return (item :: items, rest)
      | _ => none

/-- The members of an object, at least one, and its closing brace. -/
def readMembers (fuel : Nat) (chars : List Char) :
    Option (List (Option String × Json) × List Char) :=
  match fuel with
  | 0 => none
  | fuel + 1 => do
      let '"' :: rest := chars | none
      let (key, rest) ← readString (some []) none rest
      let ':' :: rest := skipBlanks rest | none
      let (value, rest) ← readValue fuel (skipBlanks rest)
      match skipBlanks rest with
      | '}' :: rest => return ([(key, value)], rest)
      | ',' :: rest =>
          let (members, rest) ← readMembers fuel (skipBlanks rest)
          return ((key, value) :: members, rest)
      | _ => none

end

/-- The value of a whole text, blanks around it allowed.  Every bracket opens
at a character of its own, so twice the length of the text is fuel enough. -/
def parse? (text : String) : Option Json :=
  let chars := text.toList
  match readValue (2 * chars.length + 2) (skipBlanks chars) with
  | some (json, rest) => if (skipBlanks rest).isEmpty then some json else none
  | none => none

end LinkState.Json
