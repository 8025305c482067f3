import DocMarkup.Pattern.ByteSequence
import DocMarkup.Pattern.Outline

/-!
How much memory the automata of an outline take.

There are two: one reads forward and records groups, the other reads backward. Both read
bytes. A state takes the same room whatever it does, and what it leads to takes room of its
own.
-/

namespace DocMarkup

namespace AutomatonSize

inductive Direction
  | forward
  | backward
  deriving DecidableEq, Repr

def stateSize : Nat := 32

def rangeSize : Nat := 8

def linkSize : Nat := 4

def isAscii (ranges : CodeRanges) : Bool :=
  ranges.all fun range => range.2 < 0x80

def asciiSize (ranges : CodeRanges) : Nat :=
  2 * stateSize + rangeSize * ranges.length

/-- The distinct sets of sequences that are left after some bytes, `depth` at most. -/
def remainders : (depth : Nat) → List (List ByteSequence) → List (List ByteSequence)
  | 0, _ => []
  | depth + 1, level =>
      let next := (level.flatMap ByteSequence.branches).filter fun sequences =>
        sequences.any fun sequence => !sequence.isEmpty
      level ++ remainders depth next.eraseDups

/-- One state for the end and one for each remainder. -/
def forwardSetSize (ranges : CodeRanges) : Nat :=
  let states := (remainders 4 [ByteSequence.ofRanges ranges]).eraseDups
  states.foldl
    (fun size sequences =>
      size + stateSize + rangeSize * (ByteSequence.branches sequences).length)
    stateSize

/-- A state for each range that a sequence does not share with the one before it. -/
def sequenceStates (before : ByteSequence) : List ByteSequence → Nat
  | [] => 0
  | sequence :: rest =>
      sequence.length - ByteSequence.common before sequence + sequenceStates sequence rest

/-- The sequences are linked to a common start; common first bytes are read last. -/
def backwardSetSize (ranges : CodeRanges) : Nat :=
  let sequences := ByteSequence.ofRanges ranges
  stateSize * (sequenceStates [] sequences + 2) + linkSize * sequences.length

def setSize (direction : Direction) (ranges : CodeRanges) : Nat :=
  if isAscii ranges then asciiSize ranges
  else
    match direction with
    | .forward => forwardSetSize ranges
    | .backward => backwardSetSize ranges

def bytes (chars : List Char) : List UInt8 :=
  chars.flatMap String.utf8EncodeChar

def literalSize (chars : List Char) : Nat :=
  stateSize * max (bytes chars).length 1

/-- The words that start with a byte, without it. -/
def after (byte : UInt8) (words : List (List UInt8)) : List (List UInt8) :=
  words.filterMap fun word =>
    match word with
    | [] => none
    | first :: rest => if first = byte then some rest else none

/-- The tree of words of `length` bytes at most; where all words end there is no state. -/
def treeSize : (length : Nat) → List (List UInt8) → Nat
  | 0, _ => 0
  | length + 1, words =>
      let firsts := (words.filterMap List.head?).eraseDups
      if firsts.isEmpty then 0
      else
        let ends := words.countP List.isEmpty
        let ranges := if firsts.length = 1 then 0 else rangeSize * firsts.length
        firsts.foldl (fun size byte => size + treeSize length (after byte words))
          (2 * stateSize + ranges + linkSize * (ends + 1))

/-- Alternatives that are all literals share the bytes that they read first. -/
def literalsSize (direction : Direction) (literals : List (List Char)) : Nat :=
  let words := literals.map bytes
  let words := if direction = .forward then words else words.map List.reverse
  let longest := words.foldl (fun length word => max length word.length) 0
  treeSize (longest + 1) words + stateSize

def literal? : Outline → Option (List Char)
  | .literal chars => some chars
  | _ => none

def captureSize : Direction → Nat
  | .forward => 2 * stateSize
  | .backward => 0

def forkSize : Nat :=
  stateSize + 2 * linkSize

/-- The repetitions of a body that takes room for `body`; `takesSome` holds if each of its
rounds takes a character. -/
def repeatedSize (low : Nat) (high : Option Nat) (takesSome : Bool) (body : Nat) : Nat :=
  match low, high with
  | 0, some 1 => forkSize + body + stateSize
  | 0, none => if takesSome then forkSize + body else 2 * forkSize + body + stateSize
  | low, none => low * body + forkSize
  | low, some high =>
      let exactly := if low = 0 then stateSize else low * body
      if high ≤ low then exactly else exactly + stateSize + (high - low) * (forkSize + body)

def isAlternation : Outline → Bool
  | .alt _ _ => true
  | _ => false

/-- The room of an outline; `inRun` holds for the rest of a run of alternatives. -/
def size (direction : Direction) (inRun : Bool) : Outline → Nat
  | .empty => stateSize
  | .literal chars => literalSize chars
  | .set _ ranges => setSize direction ranges
  | .assertion _ => stateSize
  | .capture body => size direction false body + captureSize direction
  | .repeated low high _ body => repeatedSize low high body.takesSome (size direction false body)
  | .seq first second => size direction false first + size direction false second
  | .alt first second =>
      match if inRun then none else (Outline.alt first second).branches.mapM literal? with
      | some literals => literalsSize direction literals
      | none =>
          size direction false first + size direction true second +
            (if isAlternation second then linkSize else 2 * linkSize) +
            (if inRun then 0 else 2 * stateSize)

/-- The whole automaton: any bytes come first, and there is a state for the match. -/
def total (direction : Direction) (outline : Outline) : Nat :=
  size direction false (.capture outline) +
    (3 * stateSize + 2 * linkSize + rangeSize) + stateSize

end AutomatonSize

end DocMarkup
