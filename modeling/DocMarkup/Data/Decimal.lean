namespace DocMarkup.Data

/-- The number `coefficient * 10 ^ exponent`. -/
structure Decimal where
  coefficient : Nat
  exponent : Int
  deriving DecidableEq, Repr

namespace Decimal

def digitsValue (digits : List Char) : Nat :=
  digits.foldl (fun value digit => 10 * value + (digit.toNat - '0'.toNat)) 0

/-- The exponent that the text after the digits gives: nothing, or one with its sign. -/
def exponent? : List Char → Option Int
  | [] => some 0
  | mark :: rest =>
      let (negative, digits) :=
        match rest with
        | '-' :: digits => (true, digits)
        | '+' :: digits => (false, digits)
        | digits => (false, digits)
      if (mark = 'e' ∨ mark = 'E') ∧ digits ≠ [] ∧ digits.all Char.isDigit then
        some (if negative then -(digitsValue digits) else digitsValue digits)
      else none

structure Parts where
  whole : List Char
  fraction : Option (List Char)
  exponent : Int

def parts? (chars : List Char) : Option Parts :=
  let whole := chars.takeWhile Char.isDigit
  match chars.dropWhile Char.isDigit with
  | '.' :: rest =>
      (exponent? (rest.dropWhile Char.isDigit)).map
        (⟨whole, some (rest.takeWhile Char.isDigit), ·⟩)
  | rest => (exponent? rest).map (⟨whole, none, ·⟩)

def ofParts (parts : Parts) : Decimal :=
  let fraction := parts.fraction.getD []
  ⟨digitsValue (parts.whole ++ fraction), parts.exponent - fraction.length⟩

/-- From here on numbers round to infinity: half a unit in the last place above the largest
number of double precision. -/
def overflow : Nat := Nat.pow 2 1024 - Nat.pow 2 970

def isFinite (decimal : Decimal) : Bool :=
  let places := (Nat.toDigits 10 decimal.coefficient).length
  if decimal.coefficient = 0 then true
  else if decimal.exponent + places > 310 then false
  else if decimal.exponent + places < 308 then true
  else
    decide (decimal.coefficient * Nat.pow 10 decimal.exponent.toNat <
      overflow * Nat.pow 10 (-decimal.exponent).toNat)

/-- The value of the digits as long as it fits a word of 64 bits, and the digits from the
first that does not. -/
def fillWord (value : Nat) : List Char → Nat × List Char
  | [] => (value, [])
  | digit :: digits =>
      let next := 10 * value + (digit.toNat - '0'.toNat)
      if next < UInt64.size then fillWord next digits else (value, digit :: digits)

/-- The number whose coefficient is a word: digits before the point that do not fit count for
the exponent, those after it not at all. -/
def clipped (parts : Parts) : Decimal :=
  let fraction := parts.fraction.getD []
  let (whole, spare) := fillWord 0 parts.whole
  let (coefficient, ignored) := fillWord whole fraction
  ⟨coefficient, parts.exponent + spare.length - (fraction.length - ignored.length : Nat)⟩

/-- The nearest number of 53 binary digits, the even one of two. -/
def toDouble (value : Nat) : Nat :=
  let unit := Nat.pow 2 (value.log2 - 52)
  let quotient := value / unit
  let rest := value % unit
  let isUp := unit < 2 * rest || (unit == 2 * rest && quotient % 2 == 1)
  (if isUp then quotient + 1 else quotient) * unit

def maxPower : Nat := 308

/-- Whether the coefficient times the power of ten, both rounded first, is finite. -/
def isFiniteProduct (decimal : Decimal) : Bool :=
  if decimal.coefficient = 0 ∨ decimal.exponent < 0 then true
  else if maxPower < decimal.exponent then false
  else
    decide (toDouble decimal.coefficient * toDouble (Nat.pow 10 decimal.exponent.toNat) <
      overflow)

end Decimal

end DocMarkup.Data
