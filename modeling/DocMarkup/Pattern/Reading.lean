import DocMarkup.Pattern.Lexeme
import DocMarkup.Pattern.Limits

/-!
Reading: from a written pattern to its expression.

Lexemes are taken one at a time with the groups that are open around them, so what a piece
of a pattern does depends on the state before it alone.
-/

namespace DocMarkup

namespace Expression

/-- One level of groups: its finished alternatives and the items of the current one, both
latest first. -/
structure Level where
  branches : List Expression := []
  items : List Expression := []
  deriving DecidableEq, Repr

namespace Level

def add (level : Level) (item : Expression) : Level :=
  { level with items := item :: level.items }

def branch (level : Level) : Expression :=
  ofItems level.items.reverse

def bar (level : Level) : Level :=
  ⟨level.branch :: level.branches, []⟩

def finish (level : Level) : Expression :=
  ofBranches (level.branch :: level.branches).reverse

def isFlags : Expression → Bool
  | .flags _ => true
  | _ => false

/-- A repetition takes the last item, which may be anything but flags. -/
def repeat? (level : Level) (low : Nat) (high : Option Nat) (greedy : Bool) : Option Level :=
  match level.items with
  | [] => none
  | item :: items =>
      if isFlags item then none
      else some { level with items := repeated low high greedy item :: items }

end Level

/-- The current level, and the open groups with the levels around them, innermost first. -/
structure Reader where
  current : Level := {}
  enclosing : List (GroupKind × Level) := []
  deriving DecidableEq, Repr

namespace Reader

def step? (reader : Reader) : Lexeme → Option Reader
  | .atom item => some { reader with current := reader.current.add item }
  | .flags changes => some { reader with current := reader.current.add (.flags changes) }
  | .repetition low high greedy =>
      (reader.current.repeat? low high greedy).map fun current => { reader with current }
  | .bar => some { reader with current := reader.current.bar }
  | .openGroup kind => some ⟨{}, (kind, reader.current) :: reader.enclosing⟩
  | .closeGroup =>
      match reader.enclosing with
      | [] => none
      | (kind, outer) :: enclosing =>
          some ⟨outer.add (.group kind reader.current.finish), enclosing⟩

def run? (reader : Reader) (lexemes : List Lexeme) : Option Reader :=
  lexemes.foldlM step? reader

def finish? (reader : Reader) : Option Expression :=
  if reader.enclosing.isEmpty then some reader.current.finish else none

end Reader

def ofLexemes? (lexemes : List Lexeme) : Option Expression :=
  (Reader.run? {} lexemes).bind Reader.finish?

/-- The expression that a pattern writes, if it is well formed: groups and brackets are
closed, group names differ, whole characters are taken, and it stays within the limits. -/
def read? [UnicodeClasses] (source : List Char) : Option Expression := do
  let expression ← ofLexemes? (← Lexeme.readAll [] source)
  if expression.names.Nodup ∧ (expression.takesChars {}).2 ∧ expression.withinLimits then
    some expression
  else none

end Expression

end DocMarkup
