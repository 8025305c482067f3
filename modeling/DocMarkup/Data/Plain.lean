import DocMarkup.Data.Decimal
import DocMarkup.Data.Value

namespace DocMarkup.Data

namespace Plain

def isNull (spelling : String) : Bool :=
  spelling ∈ ["", "~", "null", "Null", "NULL"]

def flag? (spelling : String) : Option Bool :=
  if spelling ∈ ["true", "True", "TRUE"] then some true
  else if spelling ∈ ["false", "False", "FALSE"] then some false
  else none

def digitValue? (base : Nat) (char : Char) : Option Nat :=
  let value :=
    if char.isDigit then some (char.toNat - '0'.toNat)
    else if char.isAlpha then some (char.toLower.toNat - 'a'.toNat + 10)
    else none
  value.filter (· < base)

def digitsValue? (base : Nat) : List Char → Option Nat
  | [] => none
  | digits => digits.foldlM (fun value digit => (digitValue? base digit).map (base * value + ·)) 0

/-- Digits that begin with a zero are text. -/
def isPadded : List Char → Bool
  | '0' :: rest => !rest.isEmpty && rest.all Char.isDigit
  | _ => false

def magnitude? : List Char → Option Nat
  | '0' :: 'x' :: digits => digitsValue? 16 digits
  | '0' :: 'o' :: digits => digitsValue? 8 digits
  | '0' :: 'b' :: digits => digitsValue? 2 digits
  | digits => if isPadded digits then none else digitsValue? 10 digits

def integer? : List Char → Option (Bool × Nat)
  | '-' :: digits => (magnitude? digits).map (true, ·)
  | '+' :: digits => (magnitude? digits).map (false, ·)
  | digits => (magnitude? digits).map (false, ·)

/-- Integers of more than 64 bits cannot be read; those of more than 128 bits are no integers. -/
def integerValue? : Bool × Nat → Option Value
  | (false, magnitude) =>
      if magnitude < UInt64.size then some (.natural magnitude)
      else if magnitude < Nat.pow 2 128 then some .broken
      else none
  | (true, magnitude) =>
      if magnitude ≤ Nat.pow 2 63 then some .number
      else if magnitude ≤ Nat.pow 2 127 then some .broken
      else none

def specialNumbers : List String :=
  [".inf", ".Inf", ".INF", "+.inf", "+.Inf", "+.INF", "-.inf", "-.Inf", "-.INF", ".nan",
    ".NaN", ".NAN"]

def isDecimal (chars : List Char) : Bool :=
  let digits :=
    match chars with
    | '+' :: digits => digits
    | '-' :: digits => digits
    | digits => digits
  !isPadded digits &&
    match Decimal.parts? digits with
    | none => false
    | some parts =>
        !(parts.whole ++ parts.fraction.getD []).isEmpty && (Decimal.ofParts parts).isFinite

def value (spelling : String) : Value :=
  if isNull spelling then .null
  else
    match flag? spelling, (integer? spelling.toList).bind integerValue? with
    | some flag, _ => .flag flag
    | none, some value => value
    | none, none =>
        if spelling ∈ specialNumbers ∨ isDecimal spelling.toList then .number
        else .text spelling

end Plain

end DocMarkup.Data
