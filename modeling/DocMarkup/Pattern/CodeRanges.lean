import DocMarkup.Pattern.CharSet

namespace DocMarkup

abbrev CodeRanges := List (Nat × Nat)

namespace CodeRanges

def maxCode : Nat := 0x10FFFF

/-- The code point of the next character; surrogates are no characters. -/
def nextCode (code : Nat) : Nat :=
  if code = 0xD7FF then 0xE000 else code + 1

def previousCode (code : Nat) : Nat :=
  if code = 0xE000 then 0xD7FF else code - 1

/-- Joins a range with those after it that it reaches, the ranges being in order. -/
def joinFrom (first last : Nat) : CodeRanges → CodeRanges
  | [] => [(first, last)]
  | (nextFirst, nextLast) :: rest =>
      if nextFirst ≤ nextCode last then joinFrom first (max last nextLast) rest
      else (first, last) :: joinFrom nextFirst nextLast rest

/-- Puts a range in its place among others, by where they start. -/
def place (range : Nat × Nat) : List (Nat × Nat) → List (Nat × Nat)
  | [] => [range]
  | next :: rest => if range.1 ≤ next.1 then range :: next :: rest else next :: place range rest

/-- The characters of ranges in any order. -/
def ofRanges (ranges : List (Nat × Nat)) : CodeRanges :=
  match ranges.foldr place [] with
  | [] => []
  | (first, last) :: rest => joinFrom first last rest

def union (first second : CodeRanges) : CodeRanges :=
  ofRanges (first ++ second)

def gapsFrom (start : Nat) : CodeRanges → CodeRanges
  | [] => if start ≤ maxCode then [(start, maxCode)] else []
  | (first, last) :: rest =>
      if start < first then (start, previousCode first) :: gapsFrom (nextCode last) rest
      else gapsFrom (nextCode last) rest

def complement (ranges : CodeRanges) : CodeRanges :=
  gapsFrom 0 ranges

def inter (first second : CodeRanges) : CodeRanges :=
  complement (union (complement first) (complement second))

def word : CodeRanges :=
  inter
    (ofRanges (('_'.toNat, '_'.toNat) :: (0x200C, 0x200D) :: Text.alphabeticRanges ++
      Text.markRanges ++ Text.decimalRanges ++ Text.connectorRanges))
    (complement Text.recentRanges)

def decimal : CodeRanges :=
  inter Text.decimalRanges (complement Text.recentRanges)

def blank : CodeRanges := [
  (0x09, 0x0D), (0x20, 0x20), (0x85, 0x85), (0xA0, 0xA0), (0x1680, 0x1680), (0x2000, 0x200A),
  (0x2028, 0x2029), (0x202F, 0x202F), (0x205F, 0x205F), (0x3000, 0x3000)]

/-- The code points that a range of a case table maps, with what they are mapped to. -/
def casePairs (range : Text.CaseRange) : List (Nat × Nat) :=
  (List.range ((range.last - range.first) / range.step + 1)).map fun index =>
    let code := range.first + index * range.step
    (code, (code + range.offset).toNat)

/-- All code points that are not their own common form, with that form. -/
def foldPairs : List (Nat × Nat) :=
  Text.foldRanges.flatMap casePairs

/-- Adds what differs in case from a member by one step, to the common form or from it. -/
def addCase (ranges : CodeRanges) : CodeRanges :=
  let added := foldPairs.filter fun (code, common) =>
    Text.inRanges ranges code || Text.inRanges ranges common
  ofRanges (ranges ++ added.flatMap fun (code, common) => [(code, code), (common, common)])

/-- Two characters that differ in case alone are at most two steps apart. -/
def ignoringCase (ranges : CodeRanges) : CodeRanges :=
  addCase (addCase ranges)

/-- The part of the ranges between two code points, moved to start at another one. -/
def moved (ranges : CodeRanges) (first last start : Nat) : CodeRanges :=
  ranges.filterMap fun range =>
    let low := max range.1 first
    let high := min range.2 last
    if low ≤ high then some (start + (low - first), start + (high - first)) else none

def ignoringAsciiCase (ranges : CodeRanges) : CodeRanges :=
  ofRanges (ranges ++ moved ranges 'a'.toNat 'z'.toNat 'A'.toNat ++
    moved ranges 'A'.toNat 'Z'.toNat 'a'.toNat)

end CodeRanges

namespace CharSet

def codeRanges : CharSet → CodeRanges
  | nothing => []
  | any => [(0, CodeRanges.maxCode)]
  | range first last => [(first.toNat, last.toNat)]
  | decimal => CodeRanges.decimal
  | blank => CodeRanges.blank
  | wordChar => CodeRanges.word
  | complement set => set.codeRanges.complement
  | union first second => first.codeRanges.union second.codeRanges
  | inter first second => first.codeRanges.inter second.codeRanges
  | ignoringCase set => set.codeRanges.ignoringCase
  | ignoringAsciiCase set => set.codeRanges.ignoringAsciiCase

end CharSet

end DocMarkup
