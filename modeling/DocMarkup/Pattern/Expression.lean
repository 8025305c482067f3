import DocMarkup.Pattern.Basic

/-!
Expressions: patterns as they are written, before flags are applied.

An expression keeps groups, repetition counts and flags where the author put them.
`pattern` gives its meaning: flags hold from where they are set to the end of the enclosing
group, also in later alternatives.
-/

namespace DocMarkup

inductive Flag
  | ignoreCase
  | multiLine
  | dotAll
  | swapGreed
  | unicode
  | anyBreak
  | verbose
  deriving DecidableEq, Repr

/-- The flags that have a meaning. Verbose mode is none of them, as it is about reading alone. -/
structure Flags where
  ignoreCase : Bool := false
  multiLine : Bool := false
  dotAll : Bool := false
  swapGreed : Bool := false
  unicode : Bool := true
  anyBreak : Bool := false
  deriving DecidableEq, Repr

abbrev FlagChanges := List (Flag × Bool)

namespace Flags

def set (flags : Flags) : Flag × Bool → Flags
  | (.ignoreCase, value) => { flags with ignoreCase := value }
  | (.multiLine, value) => { flags with multiLine := value }
  | (.dotAll, value) => { flags with dotAll := value }
  | (.swapGreed, value) => { flags with swapGreed := value }
  | (.unicode, value) => { flags with unicode := value }
  | (.anyBreak, value) => { flags with anyBreak := value }
  | (.verbose, _) => flags

def apply (flags : Flags) (changes : FlagChanges) : Flags :=
  changes.foldl set flags

/-- The set closed under what the flags say of case. -/
def close (flags : Flags) (set : CharSet) : CharSet :=
  if !flags.ignoreCase then set
  else if flags.unicode then .ignoringCase set
  else .ignoringAsciiCase set

end Flags

inductive LetterClass
  | digit
  | blank
  | word
  deriving DecidableEq, Repr

def LetterClass.members (unicode : Bool) : LetterClass → CharSet
  | digit => if unicode then .decimal else .range '0' '9'
  | blank => if unicode then .blank else .ofRanges [('\t', '\r'), (' ', ' ')]
  | word =>
      if unicode then .wordChar else .ofRanges [('0', '9'), ('A', 'Z'), ('_', '_'), ('a', 'z')]

inductive ClassOperator
  | intersection
  | difference
  | symmetricDifference
  deriving DecidableEq, Repr

def ClassOperator.combine : ClassOperator → CharSet → CharSet → CharSet
  | intersection => .inter
  | difference => .difference
  | symmetricDifference => .symmetricDifference

/-- A class, or a member of one in brackets. A run of members is a chain of unions. -/
inductive ClassItem
  | nothing
  | range (first last : Char)
  | letter (negated : Bool) (kind : LetterClass)
  | named (negated : Bool) (members : CharSet)
  | property (negated : Bool) (members : CharSet)
  | union (first second : ClassItem)
  | operation (operator : ClassOperator) (first second : ClassItem)
  | bracketed (negated : Bool) (body : ClassItem)
  deriving DecidableEq, Repr

namespace ClassItem

def single (char : Char) : ClassItem :=
  range char char

def ofItems : List ClassItem → ClassItem
  | [] => nothing
  | [item] => item
  | item :: items => union item (ofItems items)

/-- What can be negated is first closed under case. -/
def set (flags : Flags) : ClassItem → CharSet
  | nothing => .nothing
  | range first last => .range first last
  | letter negated kind => .negateIf negated (kind.members flags.unicode)
  | named negated members => .negateIf negated (flags.close members)
  | property negated members => .negateIf negated (flags.close members)
  | union first second => .union (first.set flags) (second.set flags)
  | operation operator first second =>
      operator.combine (flags.close (first.set flags)) (flags.close (second.set flags))
  | bracketed negated body => .negateIf negated (flags.close (body.set flags))

/-- Whether all that is written is ASCII, and none of it negated. -/
def isAscii : ClassItem → Bool
  | nothing => true
  | range _ last => Text.isAscii last
  | letter negated _ => !negated
  | named negated _ => !negated
  | property _ _ => false
  | union first second => first.isAscii && second.isAscii
  | operation _ first second => first.isAscii && second.isAscii
  | bracketed negated body => !negated && body.isAscii

/-- How deeply brackets, operations and runs nest; `inRun` holds in the rest of a run. -/
def depth (inRun : Bool) : ClassItem → Nat
  | union first second =>
      max (first.depth false) (second.depth true) + if inRun then 0 else 1
  | operation _ first second => max (first.depth false) (second.depth false) + 1
  | bracketed _ body => body.depth false + 1
  | _ => 0

end ClassItem

inductive GroupKind
  | unnamed
  | named (name : String)
  | flagged (changes : FlagChanges)
  deriving DecidableEq, Repr

namespace GroupKind

def flags (kind : GroupKind) (outer : Flags) : Flags :=
  match kind with
  | flagged changes => outer.apply changes
  | _ => outer

def wrap (kind : GroupKind) (body : Pattern) : Pattern :=
  match kind with
  | named name => .group name body
  | _ => body

end GroupKind

inductive Expression
  | empty
  | literal (char : Char)
  /-- A character written as a byte of two digits. -/
  | byte (char : Char)
  | dot
  | lineStart
  | lineEnd
  | textStart
  | textEnd
  | word (edge : WordEdge)
  | set (item : ClassItem)
  | flags (changes : FlagChanges)
  | group (kind : GroupKind) (body : Expression)
  | repeated (low : Nat) (high : Option Nat) (greedy : Bool) (body : Expression)
  | seq (first second : Expression)
  | alt (first second : Expression)
  deriving DecidableEq, Repr

namespace Expression

def ofItems : List Expression → Expression
  | [] => empty
  | [item] => item
  | item :: items => seq item (ofItems items)

def ofBranches : List Expression → Expression
  | [] => empty
  | [branch] => branch
  | branch :: branches => alt branch (ofBranches branches)

def dotSet (flags : Flags) : CharSet :=
  if flags.dotAll then .any
  else if flags.anyBreak then .complement (.union (.single '\n') (.single '\r'))
  else .complement (.single '\n')

def lineStartClaim (flags : Flags) : Assertion :=
  if flags.multiLine then .lineStart flags.anyBreak else .textStart

def lineEndClaim (flags : Flags) : Assertion :=
  if flags.multiLine then .lineEnd flags.anyBreak else .textEnd

/-- The pattern that the expression stands for, with the flags that hold after it. -/
def lower (flags : Flags) : Expression → Flags × Pattern
  | empty => (flags, .empty)
  | literal char => (flags, .oneOf (flags.close (.single char)))
  | byte char => (flags, .oneOf (flags.close (.single char)))
  | dot => (flags, .oneOf (dotSet flags))
  | lineStart => (flags, .assertion (lineStartClaim flags))
  | lineEnd => (flags, .assertion (lineEndClaim flags))
  | textStart => (flags, .assertion .textStart)
  | textEnd => (flags, .assertion .textEnd)
  | word edge => (flags, .assertion (.word edge flags.unicode))
  | set item => (flags, .oneOf (item.set flags))
  | .flags changes => (flags.apply changes, .empty)
  | group kind body => (flags, kind.wrap (body.lower (kind.flags flags)).2)
  | repeated low high greedy body =>
      (flags, .repeated (greedy != flags.swapGreed) (body.lower flags).2 low high)
  | seq first second =>
      let (flags, first) := first.lower flags
      let (flags, second) := second.lower flags
      (flags, .seq first second)
  | alt first second =>
      let (flags, first) := first.lower flags
      let (flags, second) := second.lower flags
      (flags, .alt first second)

def pattern (expression : Expression) : Pattern :=
  (expression.lower {}).2

/-- Whether whole characters are taken only, with the flags that hold after the expression.
Without Unicode nothing may stand for a byte outside ASCII. -/
def takesChars (flags : Flags) : Expression → Flags × Bool
  | byte char => (flags, flags.unicode || Text.isAscii char)
  | dot => (flags, flags.unicode)
  | set item => (flags, flags.unicode || item.isAscii)
  | .flags changes => (flags.apply changes, true)
  | group kind body => (flags, (body.takesChars (kind.flags flags)).2)
  | repeated _ _ _ body => (flags, (body.takesChars flags).2)
  | seq first second =>
      let (flags, first) := first.takesChars flags
      let (flags, second) := second.takesChars flags
      (flags, first && second)
  | alt first second =>
      let (flags, first) := first.takesChars flags
      let (flags, second) := second.takesChars flags
      (flags, first && second)
  | _ => (flags, true)

def names : Expression → List String
  | group (.named name) body => name :: body.names
  | group _ body => body.names
  | repeated _ _ _ body => body.names
  | seq first second => first.names ++ second.names
  | alt first second => first.names ++ second.names
  | _ => []

/-- The kind of run that an expression stands in as a member. -/
inductive Run
  | none
  | items
  | branches
  deriving DecidableEq

/-- How deeply operators nest; a run of items or of branches counts once. -/
def depth (run : Run) : Expression → Nat
  | set item => item.depth false
  | group _ body => body.depth .none + 1
  | repeated _ _ _ body => body.depth .none + 1
  | seq first second =>
      max (first.depth .none) (second.depth .items) + if run = .items then 0 else 1
  | alt first second =>
      max (first.depth .none) (second.depth .branches) + if run = .branches then 0 else 1
  | _ => 0

end Expression

end DocMarkup
