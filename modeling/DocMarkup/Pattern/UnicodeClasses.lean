import DocMarkup.Pattern.CharSet

/-!
Classes of characters that patterns name by a property of Unicode.

Which names there are and what is in the classes is up to the tables that a pattern is read
with; here it is a parameter. The instance has the classes that follow from the other tables of
this library: no scripts, no ages and not all categories.
-/

namespace DocMarkup

/-- What a class is asked for by: one letter, a name, or a property with its value. -/
inductive ClassQuery
  | letter (char : Char)
  | name (chars : List Char)
  | value (property chars : List Char)
  deriving DecidableEq, Repr

def ClassQuery.chars : ClassQuery → List Char
  | letter char => [char]
  | name chars => chars
  | value property chars => property ++ chars

class UnicodeClasses where
  set? : ClassQuery → Option CharSet
  plain : ∀ {query : ClassQuery} {set : CharSet}, set? query = some set →
    '(' ∉ query.chars ∧ ')' ∉ query.chars

namespace UnicodeClasses

/-- Case, blanks and separators in names count for nothing, and neither does `is` before them. -/
def canonical (name : List Char) : List Char :=
  let lower := name.map Char.toLower
  let bare := if ['i', 's'].isPrefixOf lower then lower.drop 2 else lower
  bare.filter fun char => Text.isAscii char && char != ' ' && char != '_' && char != '-'

/-- The characters of a table that Unicode 16.0 has. -/
def ofTable (ranges : List (Nat × Nat)) : CharSet :=
  let set (ranges : List (Nat × Nat)) : CharSet :=
    .ofRanges (ranges.map fun (first, last) => (Char.ofNat first, Char.ofNat last))
  .difference (set ranges) (set Text.recentRanges)

/-- The general category `Nl`. -/
def letterNumbers : CharSet := ofTable [
  (0x16EE, 0x16F0), (0x2160, 0x2182), (0x2185, 0x2188), (0x3007, 0x3007), (0x3021, 0x3029),
  (0x3038, 0x303A), (0xA6E6, 0xA6EF), (0x10140, 0x10174), (0x10341, 0x10341),
  (0x1034A, 0x1034A), (0x103D1, 0x103D5), (0x12400, 0x1246E)]

/-- Symbols that are alphabetic. -/
def letterSymbols : CharSet := ofTable [
  (0x24B6, 0x24E9), (0x1F130, 0x1F149), (0x1F150, 0x1F169), (0x1F170, 0x1F189)]

def letters : CharSet :=
  .difference (ofTable Text.alphabeticRanges)
    (.union (ofTable Text.markRanges) (.union letterNumbers letterSymbols))

def otherNumbers : CharSet :=
  .difference (ofTable Text.otherNumberRanges) letterNumbers

def ofCategory? (name : String) : Option CharSet :=
  if name = "any" then some .any
  else if name = "ascii" then some (.range '\x00' '\x7f')
  else if name ∈ ["l", "letter"] then some letters
  else if name ∈ ["m", "mark", "combiningmark"] then some (ofTable Text.markRanges)
  else if name ∈ ["n", "number"] then
    some (.union .decimal (.union letterNumbers otherNumbers))
  else if name ∈ ["nd", "digit", "decimalnumber"] then some .decimal
  else if name ∈ ["nl", "letternumber"] then some letterNumbers
  else if name ∈ ["no", "othernumber"] then some otherNumbers
  else if name ∈ ["pc", "connectorpunctuation"] then some (ofTable Text.connectorRanges)
  else none

def ofName? (name : String) : Option CharSet :=
  if name ∈ ["alphabetic", "alpha"] then some (ofTable Text.alphabeticRanges)
  else if name ∈ ["whitespace", "wspace", "space"] then some .blank
  else ofCategory? name

def ofQuery? : ClassQuery → Option CharSet
  | .letter char => ofName? (String.ofList (canonical [char]))
  | .name chars => ofName? (String.ofList (canonical chars))
  | .value property chars =>
      if String.ofList (canonical property) ∈ ["generalcategory", "gc"] then
        ofCategory? (String.ofList (canonical chars))
      else none

instance : UnicodeClasses where
  set? query := if '(' ∈ query.chars ∨ ')' ∈ query.chars then none else ofQuery? query
  plain h := by
    split at h
    · cases h
    · next hplain => exact not_or.mp hplain

end UnicodeClasses

end DocMarkup
