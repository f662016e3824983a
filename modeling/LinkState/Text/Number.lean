/-!
# Numbers and fields in text

Decimal and hexadecimal numbers of a limited size, and the division of a text
into fields at a separator.
-/

namespace LinkState.Text

/-- The fields between the occurrences of a separator; there is always one. -/
def fields (separator : Char) : List Char → List (List Char)
  | [] => [[]]
  | c :: rest =>
      if c = separator then [] :: fields separator rest
      else match fields separator rest with
        | field :: more => (c :: field) :: more
        | [] => [[c]]

def decimalValue? (c : Char) : Option Nat :=
  if '0' ≤ c ∧ c ≤ '9' then some (c.toNat - '0'.toNat) else none

/-- The number written by digits in a base, the most significant first. -/
def digits? (value? : Char → Option Nat) (base : Nat) (chars : List Char) : Option Nat :=
  chars.foldlM (fun n c => (value? c).map (n * base + ·)) 0

/-- A number of at least one decimal digit that may follow one plus sign and
is not above the bound. -/
def decimal? (bound : Nat) (chars : List Char) : Option Nat :=
  let body := match chars with
    | '+' :: rest => rest
    | other => other
  if body.isEmpty then none
  else (digits? decimalValue? 10 body).filter (· ≤ bound)

end LinkState.Text
