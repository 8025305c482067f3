import DocMarkup.Pattern.CodeRanges
import DocMarkup.Pattern.Expression

/-!
Outlines: what is left of an expression once it is simplified, as far as its size goes.

Literals next to each other are one, alternatives that are all single characters or all sets
are one set, and parts that all alternatives start with stand before them.
-/

namespace DocMarkup

inductive Outline
  | empty
  | literal (chars : List Char)
  /-- Characters, or bytes of ASCII. -/
  | set (bytes : Bool) (ranges : CodeRanges)
  | assertion (claim : Assertion)
  | capture (body : Outline)
  | repeated (low : Nat) (high : Option Nat) (greedy : Bool) (body : Outline)
  | seq (first second : Outline)
  | alt (first second : Outline)
  deriving DecidableEq, Repr

namespace Outline

def takesNothing : Outline → Bool
  | empty => true
  | literal chars => chars.isEmpty
  | set _ _ => false
  | assertion _ => true
  | capture body => body.takesNothing
  | repeated _ _ _ body => body.takesNothing
  | seq first second => first.takesNothing && second.takesNothing
  | alt first second => first.takesNothing && second.takesNothing

def takesSome : Outline → Bool
  | empty => false
  | literal chars => !chars.isEmpty
  | set _ ranges => !ranges.isEmpty
  | assertion _ => false
  | capture body => body.takesSome
  | repeated low _ _ body => low != 0 && body.takesSome
  | seq first second => first.takesSome || second.takesSome
  | alt first second => first.takesSome && second.takesSome

def captures : Outline → Bool
  | capture _ => true
  | repeated _ _ _ body => body.captures
  | seq first second => first.captures || second.captures
  | alt first second => first.captures || second.captures
  | _ => false

/-- A set of one character is that character, and one without any has no bytes either. -/
def ofRanges (bytes : Bool) : CodeRanges → Outline
  | [] => set true []
  | [(first, last)] =>
      if first = last then literal [Char.ofNat first] else set bytes [(first, last)]
  | ranges => set bytes ranges

def singleRange? : Outline → Option (Nat × Nat)
  | literal [char] => some (char.toNat, char.toNat)
  | _ => none

def ranges? : Outline → Option CodeRanges
  | set _ ranges => some ranges
  | _ => none

/-- One round that takes nothing is as good as any number of them. -/
def repetition (low : Nat) (high : Option Nat) (greedy : Bool) (body : Outline) : Outline :=
  let (low, high) :=
    if body.takesNothing then (min low 1, some (min (high.getD 1) 1)) else (low, high)
  if low = 0 ∧ high = some 0 then empty
  else if low = 1 ∧ high = some 1 then body
  else repeated low high greedy body

def parts : Outline → List Outline
  | empty => []
  | seq first second => first :: second.parts
  | outline => [outline]

def ofParts : List Outline → Outline
  | [] => empty
  | [part] => part
  | part :: parts => seq part (ofParts parts)

def joinLiterals : List Outline → List Outline
  | [] => []
  | literal chars :: rest =>
      match joinLiterals rest with
      | literal more :: rest => literal (chars ++ more) :: rest
      | rest => literal chars :: rest
  | part :: rest => part :: joinLiterals rest

def concat (outlines : List Outline) : Outline :=
  ofParts (joinLiterals (outlines.flatMap parts))

def branches : Outline → List Outline
  | alt first second => first :: second.branches
  | outline => [outline]

def ofBranches : List Outline → Outline
  | [] => empty
  | [branch] => branch
  | branch :: branches => alt branch (ofBranches branches)

/-- The alternatives as one set if they are all single characters or all sets. -/
def merge (branches : List Outline) : Option Outline :=
  match branches.mapM singleRange? with
  | some ranges => some (ofRanges false (CodeRanges.ofRanges ranges))
  | none =>
      (branches.mapM ranges?).map fun ranges =>
        ofRanges false (CodeRanges.ofRanges ranges.flatten)

/-- The parts that two runs start with in common. Captures are never the same. -/
def commonParts : List Outline → List Outline → List Outline
  | part :: parts, other :: others =>
      if part = other ∧ !part.captures then part :: commonParts parts others else []
  | _, _ => []

/-- The parts that all alternatives start with; alternatives of one part have none. -/
def sharedParts : List Outline → List Outline
  | [] => []
  | branch :: rest =>
      let runs := (branch :: rest).map parts
      if runs.all fun run => 1 < run.length then rest.foldl (commonParts · ·.parts) branch.parts
      else []

def mergeOr (branches : List Outline) : Outline :=
  (merge branches).getD (ofBranches branches)

def alternation (outlines : List Outline) : Outline :=
  match outlines.flatMap branches with
  | [] => empty
  | [branch] => branch
  | all =>
      match merge all with
      | some outline => outline
      | none =>
          let shared := sharedParts all
          if shared.isEmpty then ofBranches all
          else
            let rests := all.map fun branch => concat (branch.parts.drop shared.length)
            concat (shared ++ [mergeOr (rests.flatMap branches)])

end Outline

namespace Expression

/-- One run of parts: the alternatives of several are one part. -/
def oneRun : List (List Outline) → List Outline
  | [run] => run
  | runs => [Outline.alternation (runs.map Outline.concat)]

def ofSet (flags : Flags) (set : CharSet) : Outline :=
  .ofRanges (!flags.unicode) set.codeRanges

/-- The alternatives of an expression as runs of parts, with the flags that hold after it. -/
def runs (flags : Flags) : Expression → Flags × List (List Outline)
  | empty => (flags, [[]])
  | literal char => (flags, [[ofSet flags (flags.close (.single char))]])
  | byte char => (flags, [[ofSet flags (flags.close (.single char))]])
  | dot => (flags, [[ofSet flags (dotSet flags)]])
  | lineStart => (flags, [[.assertion (lineStartClaim flags)]])
  | lineEnd => (flags, [[.assertion (lineEndClaim flags)]])
  | textStart => (flags, [[.assertion .textStart]])
  | textEnd => (flags, [[.assertion .textEnd]])
  | word edge => (flags, [[.assertion (.word edge flags.unicode)]])
  | set item => (flags, [[ofSet flags (item.set flags)]])
  | .flags changes => (flags.apply changes, [[]])
  | group kind body =>
      let runs := (body.runs (kind.flags flags)).2
      let body := Outline.alternation (runs.map Outline.concat)
      (flags, [[match kind with
        | .flagged _ => body
        | _ => .capture body]])
  | repeated low high greedy body =>
      let body := Outline.alternation ((body.runs flags).2.map Outline.concat)
      (flags, [[Outline.repetition low high (greedy != flags.swapGreed) body]])
  | seq first second =>
      let (flags, first) := first.runs flags
      let (flags, second) := second.runs flags
      (flags, [oneRun first ++ oneRun second])
  | alt first second =>
      let (flags, first) := first.runs flags
      let (flags, second) := second.runs flags
      (flags, first ++ second)

def outline (expression : Expression) : Outline :=
  Outline.alternation ((expression.runs {}).2.map Outline.concat)

end Expression

end DocMarkup
