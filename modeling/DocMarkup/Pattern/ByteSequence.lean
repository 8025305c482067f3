import DocMarkup.Pattern.CodeRanges

/-!
Sets of characters as sequences of byte ranges.

A sequence stands for the characters whose UTF-8 form has a byte of each range in turn. The
characters of a set make up sequences that are disjoint and in ascending order.
-/

namespace DocMarkup

abbrev ByteSequence := List (Nat × Nat)

namespace ByteSequence

/-- The digits in base 64 of the numbers between two, with `more` digits after the first. -/
def digitsBetween : (more : Nat) → (first last : Nat) → List ByteSequence
  | 0, first, last => [[(first, last)]]
  | more + 1, first, last =>
      let unit := Nat.pow 64 (more + 1)
      let (firstDigit, firstRest) := (first / unit, first % unit)
      let (lastDigit, lastRest) := (last / unit, last % unit)
      let full := List.replicate (more + 1) (0, 63)
      if firstRest = 0 ∧ lastRest = unit - 1 then [(firstDigit, lastDigit) :: full]
      else if firstDigit = lastDigit then
        (digitsBetween more firstRest lastRest).map ((firstDigit, firstDigit) :: ·)
      else
        let low :=
          if firstRest = 0 then []
          else (digitsBetween more firstRest (unit - 1)).map ((firstDigit, firstDigit) :: ·)
        let high :=
          if lastRest = unit - 1 then []
          else (digitsBetween more 0 lastRest).map ((lastDigit, lastDigit) :: ·)
        let lowest := if firstRest = 0 then firstDigit else firstDigit + 1
        let highest := if lastRest = unit - 1 then lastDigit + 1 else lastDigit
        let middle := if lowest < highest then [(lowest, highest - 1) :: full] else []
        low ++ middle ++ high

/-- Code points with UTF-8 forms of one length. -/
structure Block where
  first : Nat
  last : Nat
  /-- How many bytes follow the first one. -/
  more : Nat
  /-- What is added to the digit in the first byte. -/
  lead : Nat

def blocks : List Block := [
  ⟨0, 0x7F, 0, 0⟩, ⟨0x80, 0x7FF, 1, 0xC0⟩, ⟨0x800, 0xD7FF, 2, 0xE0⟩,
  ⟨0xE000, 0xFFFF, 2, 0xE0⟩, ⟨0x10000, 0x10FFFF, 3, 0xF0⟩]

def shift (offset : Nat) (range : Nat × Nat) : Nat × Nat :=
  (range.1 + offset, range.2 + offset)

def ofDigits (lead : Nat) : ByteSequence → ByteSequence
  | [] => []
  | first :: rest => shift lead first :: rest.map (shift 0x80)

def ofRange (range : Nat × Nat) : List ByteSequence :=
  blocks.flatMap fun block =>
    let first := max range.1 block.first
    let last := min range.2 block.last
    if first ≤ last then (digitsBetween block.more first last).map (ofDigits block.lead)
    else []

def ofRanges (ranges : CodeRanges) : List ByteSequence :=
  ranges.flatMap ofRange

def common : ByteSequence → ByteSequence → Nat
  | first :: rest, other :: others => if first = other then common rest others + 1 else 0
  | _, _ => 0

/-- Sequences without their first ranges, together where these are the same. -/
def branches (sequences : List ByteSequence) : List (List ByteSequence) :=
  (sequences.splitBy fun first second => first.head? == second.head?).map
    fun group => group.map List.tail

end ByteSequence

end DocMarkup
