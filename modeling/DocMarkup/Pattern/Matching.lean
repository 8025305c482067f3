import DocMarkup.Pattern.Basic
import DocMarkup.Pattern.Visited

/-!
Matching: where a pattern first takes text, how much of it, and where its groups lie.

All ways to match advance together, one character at a time, in the order in which they are
preferred: those that started earlier first, then by the order of alternatives. A way is
given up as soon as a preferred one has the same left to do at the same position, so no text
makes matching slow and the preferred way is the one that is found.
-/

namespace DocMarkup

namespace Pattern

def keyOf : List Nat → UInt64
  | [] => 1
  | turn :: turns => (keyOf turns + .ofNat turn) * 6364136223846793005 + 1442695040888963407

/-- Which part of a pattern is meant, and in which round: the turns taken on the way to it,
latest first. The key is kept with them, so that labels are told apart at a glance. -/
structure Label where
  key : UInt64
  turns : List Nat
  key_eq : key = keyOf turns
  deriving DecidableEq, Repr

def Label.whole : Label := ⟨1, [], rfl⟩

structure Part where
  label : Label
  pattern : Pattern
  deriving DecidableEq, Repr

/-- What is left to match, in order. -/
abbrev Todo := List Part

def inner (label : Label) (turn : Nat) : Label where
  key := (label.key + .ofNat turn) * 6364136223846793005 + 1442695040888963407
  turns := turn :: label.turns
  key_eq := by rw [label.key_eq, keyOf]

/-- Where a way to match started, and how far from there it passed marks, latest first. -/
structure Trace where
  origin : Nat
  marks : List (Mark × Nat) := []
  deriving DecidableEq, Repr

def Trace.pass (trace : Trace) (mark : Mark) (position : Nat) : Trace :=
  { trace with marks := (mark, position - trace.origin) :: trace.marks }

/-- A way to match so far: it either is complete or waits for a character. -/
inductive Thread
  | complete (trace : Trace)
  | waiting (set : CharSet) (todo : Todo) (trace : Trace)
  deriving DecidableEq, Repr

/-- What was left to do at one position, and the threads found there, latest first. -/
structure Frontier where
  visited : Visited Todo
  threads : List Thread

def todoKey : Todo → UInt64
  | [] => 0
  | part :: _ => part.label.key

namespace Frontier

def empty : Frontier := ⟨.nothing, []⟩

def hasVisited (frontier : Frontier) (todo : Todo) : Bool :=
  frontier.visited.contains (todoKey todo) todo

def visit (frontier : Frontier) (todo : Todo) : Frontier :=
  { frontier with visited := frontier.visited.insert (todoKey todo) todo }

def emit (frontier : Frontier) (thread : Thread) : Frontier :=
  { frontier with threads := thread :: frontier.threads }

end Frontier

/-- What follows once a part is matched. -/
abbrev Continuation := Trace → Frontier → Frontier

/-- Goes on unless the same was left to do here before. -/
def visiting (todo : Todo) (next : Continuation) : Continuation := fun trace frontier =>
  if frontier.hasVisited todo then frontier else next trace (frontier.visit todo)

/-- How a body is entered, given its label, what is left after it and what follows. -/
abbrev Entry := Label → Todo → Continuation → Continuation

def enterTimes (body : Pattern) (entry : Entry) (rest : Todo) (next : Continuation) :
    (count : Nat) → (label : Label) → Continuation
  | 0, _ => next
  | count + 1, label =>
      let todo : Todo := ⟨inner label 2, .times count body⟩ :: rest
      entry (inner label 1) todo
        (visiting todo (enterTimes body entry rest next count (inner label 2)))

def enterUpTo (greedy : Bool) (body : Pattern) (entry : Entry) (rest : Todo)
    (next : Continuation) : (count : Nat) → (label : Label) → Continuation
  | 0, _ => next
  | count + 1, label => fun trace frontier =>
      let todo : Todo := ⟨inner label 2, .upTo greedy count body⟩ :: rest
      let more := entry (inner label 1) todo
        (visiting todo (enterUpTo greedy body entry rest next count (inner label 2)))
      if greedy then next trace (more trace frontier) else more trace (next trace frontier)

/-- Further rounds of a loop: one that takes no character goes no further. -/
def enterLoop (greedy : Bool) (round next : Continuation) : Continuation := fun trace frontier =>
  if greedy then next trace (round trace frontier) else round trace (next trace frontier)

/-- Adds the threads that a pattern starts at a position, and for each way through it that
takes no character those of `next`, which continues with `rest`. -/
def enter (here : Surroundings) (position : Nat) (pattern : Pattern) (label : Label)
    (rest : Todo) (next : Continuation) : Continuation :=
  visiting (⟨label, pattern⟩ :: rest) fun trace frontier =>
    match pattern with
    | empty => next trace frontier
    | oneOf set => frontier.emit (.waiting set rest trace)
    | assertion claim => if claim.holds here then next trace frontier else frontier
    | mark passed => next (trace.pass passed position) frontier
    | seq first second =>
        enter here position first (inner label 1) (⟨inner label 2, second⟩ :: rest)
          (enter here position second (inner label 2) rest next) trace frontier
    | alt first second =>
        enter here position second (inner label 2) rest next trace
          (enter here position first (inner label 1) rest next trace frontier)
    | times count body =>
        enterTimes body (fun label rest next => enter here position body label rest next)
          rest next count label trace frontier
    | upTo greedy count body =>
        enterUpTo greedy body (fun label rest next => enter here position body label rest next)
          rest next count label trace frontier
    | loop greedy body =>
        let round := enter here position body (inner label 1) (⟨label, loop greedy body⟩ :: rest)
        enterLoop greedy (round fun _ frontier => frontier) next trace frontier
    | oneOrMore greedy body =>
        let label := inner label 1
        let todo : Todo := ⟨label, loop greedy body⟩ :: rest
        let round := enter here position body (inner label 1) todo
        round (visiting todo (enterLoop greedy (round fun _ frontier => frontier) next))
          trace frontier

/-- Adds the threads that start with all that is left to do. -/
def enterAll (here : Surroundings) (position : Nat) : Todo → Continuation
  | [] => visiting [] fun trace frontier => frontier.emit (.complete trace)
  | part :: rest =>
      enter here position part.pattern part.label rest (enterAll here position rest)

/-- The threads after one more character. What follows a complete thread is less preferred
than the match it stands for. -/
def advance (char : Char) (here : Surroundings) (position : Nat) :
    List Thread → Frontier → Frontier
  | [], frontier => frontier
  | .complete _ :: _, frontier => frontier
  | .waiting set todo trace :: threads, frontier =>
      advance char here position threads
        (if set.contains char then enterAll here position todo trace frontier else frontier)

def completed? : List Thread → Option Trace
  | [] => none
  | .complete trace :: _ => some trace
  | .waiting _ _ _ :: threads => completed? threads

/-- A match: where it starts, how many characters it takes, and how far from its start it
passed marks. -/
structure Match where
  start : Nat
  length : Nat
  marks : List (Mark × Nat)
  deriving DecidableEq, Repr

def Trace.finish (trace : Trace) (position : Nat) : Match :=
  ⟨trace.origin, position - trace.origin, trace.marks⟩

def start (pattern : Pattern) (here : Surroundings) (position : Nat)
    (frontier : Frontier) : Frontier :=
  enterAll here position [⟨.whole, pattern⟩] ⟨position, []⟩ frontier

/-- The match of a complete thread, or else an earlier one. -/
def latest (threads : List Thread) (position : Nat) (earlier : Option Match) : Option Match :=
  match completed? threads with
  | some trace => some (trace.finish position)
  | none => earlier

/-- Follows the threads through the text; `found` is the match that they may improve on, and
as long as there is none the pattern `restart` is started at every position. -/
def follow (restart : Option Pattern) (threads : List Thread) (position : Nat)
    (found : Option Match) (text : List Char) : Option Match :=
  let found := latest threads position found
  match text with
  | [] => found
  | char :: rest =>
      let restart := if found.isSome then none else restart
      if threads.isEmpty && restart.isNone then found
      else
        let here := ⟨some char, rest.head?⟩
        let frontier := advance char here (position + 1) threads Frontier.empty
        let frontier := match restart with
          | some pattern => pattern.start here (position + 1) frontier
          | none => frontier
        follow restart frontier.threads.reverse (position + 1) found rest

def initial (pattern : Pattern) (before : Option Char) (text : List Char) : List Thread :=
  (pattern.start ⟨before, text.head?⟩ 0 Frontier.empty).threads.reverse

/-- The preferred match that starts where the text does. -/
def match? (pattern : Pattern) (before : Option Char) (text : List Char) : Option Match :=
  follow none (pattern.initial before text) 0 none text

/-- The preferred one of the matches that start first. -/
def search? (pattern : Pattern) (before : Option Char) (text : List Char) : Option Match :=
  follow (some pattern) (pattern.initial before text) 0 none text

namespace Match

def stop (found : Match) : Nat :=
  found.start + found.length

def span? (found : Match) (group : String) : Option (Nat × Nat) :=
  match found.marks.lookup (.start group), found.marks.lookup (.stop group) with
  | some first, some last => some (first, last)
  | _, _ => none

def group? (found : Match) (group : String) (text : List Char) : Option (List Char) :=
  (found.span? group).map fun (first, last) => (text.take last).drop first

end Match

end Pattern

end DocMarkup
