import DocMarkup.Text.AlphabetTables

/-!
Letters, digits and word characters of Unicode.

Digits and word characters are those that patterns know, which go by Unicode 16.0.
-/

namespace DocMarkup.Text

def inRanges : List (Nat × Nat) → Nat → Bool
  | [], _ => false
  | (first, last) :: rest, code =>
      if code < first then false else decide (code ≤ last) || inRanges rest code

def isAscii (char : Char) : Bool :=
  char.toNat < 0x80

def isAlphabetic (char : Char) : Bool :=
  if isAscii char then char.isAlpha else inRanges alphabeticRanges char.toNat

def isMark (char : Char) : Bool :=
  inRanges markRanges char.toNat

def isRecent (char : Char) : Bool :=
  inRanges recentRanges char.toNat

def isDecimal (char : Char) : Bool :=
  if isAscii char then char.isDigit
  else inRanges decimalRanges char.toNat && !isRecent char

def isConnector (char : Char) : Bool :=
  inRanges connectorRanges char.toNat

/-- Zero width joiner and non-joiner, which occur inside words. -/
def isJoiner (char : Char) : Bool :=
  char.toNat == 0x200C || char.toNat == 0x200D

/-- A letter or a number of any kind. -/
def isAlphanumeric (char : Char) : Bool :=
  isAlphabetic char || inRanges decimalRanges char.toNat ||
    inRanges otherNumberRanges char.toNat

def isWordChar (char : Char) : Bool :=
  if isAscii char then char.isAlphanum || char == '_'
  else
    (isAlphabetic char || isMark char || isDecimal char || isConnector char || isJoiner char) &&
      !isRecent char

end DocMarkup.Text
