import DocMarkup.Text.Blank
import DocMarkup.Text.Folding

namespace DocMarkup

inductive CharSet
  | nothing
  | any
  | range (first last : Char)
  | decimal
  | blank
  | wordChar
  | complement (set : CharSet)
  | union (first second : CharSet)
  | inter (first second : CharSet)
  | ignoringCase (set : CharSet)
  | ignoringAsciiCase (set : CharSet)
  deriving DecidableEq, Repr

namespace CharSet

/-- The letter of ASCII that differs in case alone. -/
def swapAsciiCase (char : Char) : Char :=
  if char.isUpper then char.toLower else char.toUpper

def contains : CharSet → Char → Bool
  | nothing, _ => false
  | any, _ => true
  | range first last, char => first ≤ char && char ≤ last
  | decimal, char => Text.isDecimal char
  | blank, char => Text.isBlank char
  | wordChar, char => Text.isWordChar char
  | complement set, char => !set.contains char
  | union first second, char => first.contains char || second.contains char
  | inter first second, char => first.contains char && second.contains char
  | ignoringCase set, char => (Text.caseVariants char).any set.contains
  | ignoringAsciiCase set, char => set.contains char || set.contains (swapAsciiCase char)

def single (char : Char) : CharSet :=
  range char char

def ofRanges (ranges : List (Char × Char)) : CharSet :=
  ranges.foldl (fun set (first, last) => .union set (.range first last)) .nothing

def negateIf (negated : Bool) (set : CharSet) : CharSet :=
  if negated then complement set else set

def difference (first second : CharSet) : CharSet :=
  inter first (complement second)

def symmetricDifference (first second : CharSet) : CharSet :=
  union (difference first second) (difference second first)

@[simp] theorem contains_single (char other : Char) :
    (single char).contains other = (other == char) := by
  rw [Bool.eq_iff_iff]
  simp only [single, contains, Bool.and_eq_true, decide_eq_true_eq, beq_iff_eq]
  exact ⟨fun h => Char.le_antisymm h.2 h.1, fun h => h ▸ ⟨Char.le_refl _, Char.le_refl _⟩⟩

@[simp] theorem contains_complement (set : CharSet) (char : Char) :
    (complement set).contains char = !set.contains char := rfl

@[simp] theorem contains_union (first second : CharSet) (char : Char) :
    (union first second).contains char = (first.contains char || second.contains char) := rfl

end CharSet

end DocMarkup
