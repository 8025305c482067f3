import DocMarkup.Text.Case
import DocMarkup.Text.FoldingTables

namespace DocMarkup.Text

/-- The common form of the characters that differ from one in case alone. -/
def foldCode (code : Nat) : Nat :=
  match caseOffset? foldRanges code with
  | some offset => (code + offset).toNat
  | none => code

/-- The code point of a range that is mapped to another. -/
def CaseRange.source? (range : CaseRange) (code : Nat) : Option Nat :=
  let source := (code - range.offset).toNat
  if range.first ≤ source ∧ source ≤ range.last ∧ (source - range.first) % range.step = 0 then
    some source
  else none

/-- A character and those that differ from it in case alone. -/
def caseVariants (char : Char) : List Char :=
  let common := foldCode char.toNat
  (common :: foldRanges.filterMap (CaseRange.source? · common)).map Char.ofNat

end DocMarkup.Text
