import DocMarkup.Data.Yaml.Text

/-!
Scalars of YAML, read one character at a time.

A scalar may go on over lines. The line breaks between two of its words are folded: a single
line feed counts as a space, and one before further line breaks is left out.
-/

namespace DocMarkup.Data.Yaml

inductive Gap
  /-- Blanks on one line, last first. -/
  | blanks (read : List Char)
  /-- Line breaks with any blanks: the first, unless it was escaped, and the others, last
  first. -/
  | breaks (first : Option Char) (more : List Char)
  deriving DecidableEq, Repr

namespace Gap

def none : Gap :=
  blanks []

def hasBreak : Gap → Bool
  | blanks _ => false
  | breaks _ _ => true

def isEmpty : Gap → Bool
  | blanks read => read.isEmpty
  | breaks _ _ => false

def add (gap : Gap) (char : Char) : Gap :=
  match gap, isBreak char with
  | blanks read, false => blanks (char :: read)
  | blanks _, true => breaks (some char) []
  | breaks first more, false => breaks first more
  | breaks first more, true => breaks first (char :: more)

/-- The text that a gap stands for, last character first. -/
def text : Gap → List Char
  | blanks read => read
  | breaks (some '\n') [] => [' ']
  | breaks (some '\n') more => more
  | breaks first more => more ++ first.toList

end Gap

structure PlainScalar where
  read : List Char
  gap : Gap := .none
  deriving DecidableEq, Repr

namespace PlainScalar

def skip (scalar : PlainScalar) (char : Char) : PlainScalar :=
  { scalar with gap := scalar.gap.add char }

def add (scalar : PlainScalar) (char : Char) : PlainScalar :=
  { read := char :: (scalar.gap.text ++ scalar.read) }

/-- The gap at the end does not count. -/
def spelling (scalar : PlainScalar) : String :=
  String.ofList scalar.read.reverse

end PlainScalar

def escaped? : Char → Option Char
  | '0' => some '\x00'
  | 'a' => some '\x07'
  | 'b' => some '\x08'
  | 't' => some '\t'
  | '\t' => some '\t'
  | 'n' => some '\n'
  | 'v' => some '\x0b'
  | 'f' => some '\x0c'
  | 'r' => some '\r'
  | 'e' => some '\x1b'
  | ' ' => some ' '
  | '"' => some '"'
  | '/' => some '/'
  | '\\' => some '\\'
  | 'N' => some '\u0085'
  | '_' => some '\u00a0'
  | 'L' => some '\u2028'
  | 'P' => some '\u2029'
  | _ => none

def hexLength? : Char → Option Nat
  | 'x' => some 2
  | 'u' => some 4
  | 'U' => some 8
  | _ => none

def hexDigit? (char : Char) : Option Nat :=
  if char.isDigit then some (char.toNat - '0'.toNat)
  else if 'a' ≤ char ∧ char ≤ 'f' then some (char.toNat - 'a'.toNat + 10)
  else if 'A' ≤ char ∧ char ≤ 'F' then some (char.toNat - 'A'.toNat + 10)
  else none

/-- What the next character in quotes belongs to. -/
inductive Escape
  | none
  | quote
  | letter
  | code (digits : Nat) (value : Nat)
  deriving DecidableEq, Repr

structure QuotedScalar where
  isDouble : Bool
  read : List Char := []
  gap : Gap := .none
  escape : Escape := .none
  deriving DecidableEq, Repr

inductive QuotedScalar.Progress
  | reading (scalar : QuotedScalar)
  | closed (text : String)
  deriving DecidableEq, Repr

namespace QuotedScalar

def joined (scalar : QuotedScalar) : QuotedScalar :=
  { scalar with read := scalar.gap.text ++ scalar.read, gap := .none }

def add (scalar : QuotedScalar) (char : Char) : QuotedScalar :=
  { scalar with read := char :: scalar.read, escape := .none }

def escaping (scalar : QuotedScalar) (escape : Escape) : QuotedScalar :=
  { scalar with escape }

def text (scalar : QuotedScalar) : String :=
  String.ofList scalar.read.reverse

/-- A character of an escape. A line break that is escaped joins two lines. -/
def stepEscape? (scalar : QuotedScalar) (char : Char) : Escape → Option QuotedScalar
  | .none => none
  | .quote => some (scalar.add char)
  | .letter =>
      if isBreak char then some { scalar with gap := .breaks none [], escape := .none }
      else
        match hexLength? char with
        | some digits => some (scalar.escaping (.code digits 0))
        | none => (escaped? char).map scalar.add
  | .code digits value => do
      let value := 16 * value + (← hexDigit? char)
      if 1 < digits then return scalar.escaping (.code (digits - 1) value)
      else if value.isValidChar then return scalar.add (Char.ofNat value)
      else none

/-- A character that is no part of an escape, before the character `next`. -/
def stepPlain (scalar : QuotedScalar) (char : Char) (next : Option Char) : Progress :=
  if isBlank char || isBreak char then .reading { scalar with gap := scalar.gap.add char }
  else
    let scalar := scalar.joined
    match scalar.isDouble, char with
    | true, '"' => .closed scalar.text
    | true, '\\' => .reading (scalar.escaping .letter)
    | false, '\'' =>
        if next = some '\'' then .reading (scalar.escaping .quote) else .closed scalar.text
    | _, char => .reading (scalar.add char)

/-- No line in quotes starts with a mark of documents. -/
def step? (scalar : QuotedScalar) (column : Nat) (char : Char) (rest : List Char) :
    Option Progress :=
  if scalar.escape ≠ .none then (scalar.stepEscape? char scalar.escape).map .reading
  else if column = 0 ∧ isDocumentMark (char :: rest) then none
  else some (scalar.stepPlain char rest.head?)

end QuotedScalar

end DocMarkup.Data.Yaml
