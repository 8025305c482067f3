import DocMarkup.Pattern.CharSet

/-!
Patterns in the form in which they are matched: a tree with ordered alternatives, loops and
marks that record where named groups start and stop.
-/

namespace DocMarkup

/-- Where a position lies next to words; the half edges look at one side of it. -/
inductive WordEdge
  | either
  | neither
  | start
  | stop
  | startHalf
  | stopHalf
  deriving DecidableEq, Repr

inductive Assertion
  | textStart
  | textEnd
  /-- Lines end with a line feed, or with any of the two breaks and the pair of them. -/
  | lineStart (anyBreak : Bool)
  | lineEnd (anyBreak : Bool)
  /-- Words are those of Unicode, or of ASCII. -/
  | word (edge : WordEdge) (unicode : Bool)
  deriving DecidableEq, Repr

structure Surroundings where
  before : Option Char
  after : Option Char

/-- Given whether there is a word on each side. -/
def WordEdge.holds : WordEdge → (before after : Bool) → Bool
  | either, before, after => before != after
  | neither, before, after => before == after
  | start, before, after => !before && after
  | stop, before, after => before && !after
  | startHalf, before, _ => !before
  | stopHalf, _, after => !after

namespace Assertion

def isWordChar (unicode : Bool) (char : Char) : Bool :=
  if unicode then Text.isWordChar char else char.isAlphanum || char == '_'

def holds : Assertion → Surroundings → Bool
  | textStart, here => here.before.isNone
  | textEnd, here => here.after.isNone
  | lineStart anyBreak, here =>
      here.before.all (· == '\n') ||
        anyBreak && here.before == some '\r' && here.after != some '\n'
  | lineEnd anyBreak, here =>
      if anyBreak then
        here.after.isNone || here.after == some '\r' ||
          here.after == some '\n' && here.before != some '\r'
      else here.after.all (· == '\n')
  | word edge unicode, here =>
      edge.holds (here.before.any (isWordChar unicode)) (here.after.any (isWordChar unicode))

end Assertion

inductive Mark
  | start (group : String)
  | stop (group : String)
  deriving DecidableEq, Repr

inductive Pattern
  | empty
  | oneOf (set : CharSet)
  | assertion (claim : Assertion)
  | mark (mark : Mark)
  | seq (first second : Pattern)
  /-- The first alternative is preferred. -/
  | alt (first second : Pattern)
  | times (count : Nat) (body : Pattern)
  /-- At most so many rounds; the greedy form prefers another round to an end. -/
  | upTo (greedy : Bool) (count : Nat) (body : Pattern)
  | loop (greedy : Bool) (body : Pattern)
  /-- A round and then any number of further ones. -/
  | oneOrMore (greedy : Bool) (body : Pattern)
  deriving DecidableEq, Repr

namespace Pattern

def nullable : Pattern → Bool
  | empty => true
  | oneOf _ => false
  | assertion _ => true
  | mark _ => true
  | seq first second => first.nullable && second.nullable
  | alt first second => first.nullable || second.nullable
  | times count body => count == 0 || body.nullable
  | upTo _ _ _ => true
  | loop _ _ => true
  | oneOrMore _ body => body.nullable

def takesNothing : Pattern → Bool
  | oneOf _ => false
  | seq first second => first.takesNothing && second.takesNothing
  | alt first second => first.takesNothing && second.takesNothing
  | times _ body => body.takesNothing
  | upTo _ _ body => body.takesNothing
  | loop _ body => body.takesNothing
  | oneOrMore _ body => body.takesNothing
  | _ => true

def groups : Pattern → List String
  | mark (.start group) => [group]
  | seq first second => first.groups ++ second.groups
  | alt first second => first.groups ++ second.groups
  | times _ body => body.groups
  | upTo _ _ body => body.groups
  | loop _ body => body.groups
  | oneOrMore _ body => body.groups
  | _ => []

def group (name : String) (body : Pattern) : Pattern :=
  seq (mark (.start name)) (seq body (mark (.stop name)))

def optional (greedy : Bool) (body : Pattern) : Pattern :=
  upTo greedy 1 body

/-- A body that can match nothing gets its first round outside the loop, as the rounds of a
loop never repeat a position. -/
def zeroOrMore (greedy : Bool) (body : Pattern) : Pattern :=
  if body.nullable then optional greedy (oneOrMore greedy body) else loop greedy body

def exactly (body : Pattern) : Nat → Pattern
  | 0 => empty
  | 1 => body
  | count => times count body

def atLeast (greedy : Bool) (body : Pattern) : Nat → Pattern
  | 0 => zeroOrMore greedy body
  | 1 => oneOrMore greedy body
  | count + 2 => seq (exactly body (count + 1)) (oneOrMore greedy body)

def between (greedy : Bool) (body : Pattern) (low high : Nat) : Pattern :=
  if high ≤ low then exactly body low
  else if low = 0 then upTo greedy high body
  else seq (exactly body low) (upTo greedy (high - low) body)

/-- Between `low` and `high` rounds, without upper bound for `none`. One round that takes
nothing is as good as any number of them. -/
def repeated (greedy : Bool) (body : Pattern) (low : Nat) (high : Option Nat) : Pattern :=
  if body.takesNothing then between greedy body (min low 1) (min (high.getD 1) 1)
  else
    match high with
    | none => atLeast greedy body low
    | some high => between greedy body low high

end Pattern

end DocMarkup
