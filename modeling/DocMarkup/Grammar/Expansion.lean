import DocMarkup.Grammar.NamedPattern
import DocMarkup.Unvisited

/-!
Expansion: putting the patterns that placeholders refer to in their place.

A pattern that is put in another's place stands in a group of its own, and the properties of
its own placeholders are dropped. What has been expanded once is kept for later placeholders.
-/

namespace DocMarkup

inductive GrammarError
  | duplicateName (name : String)
  | unknownReference (owner reference : String)
  | cycle (path : List String)
  | duplicateProperty (owner property : String)
  | empty
  | invalidPattern
  deriving DecidableEq, Repr

namespace GrammarError

def message : GrammarError → String
  | duplicateName name => s!"pattern `{name}` is declared more than once"
  | unknownReference owner reference =>
      s!"pattern `{owner}` references unknown pattern `{reference}`"
  | cycle path => "pattern references form a cycle: " ++ " -> ".intercalate path
  | duplicateProperty owner property =>
      s!"pattern `{owner}` captures `{property}` more than once"
  | empty => "grammar has no public patterns"
  | invalidPattern => "invalid pattern"

end GrammarError

namespace NamedPattern

def find? (patterns : List NamedPattern) (name : String) : Option NamedPattern :=
  patterns.find? fun pattern => pattern.label == name

theorem mem_of_find? {patterns : List NamedPattern} {name : String} {pattern : NamedPattern}
    (h : find? patterns name = some pattern) : pattern ∈ patterns ∧ pattern.label = name :=
  ⟨List.mem_of_find?_eq_some h, by simpa using List.find?_some h⟩

def repeatedName? (seen : List String) : List NamedPattern → Option String
  | [] => none
  | pattern :: patterns =>
      if pattern.label ∈ seen then some pattern.label
      else repeatedName? (pattern.label :: seen) patterns

def unknownReference? (patterns : List NamedPattern) : Option GrammarError :=
  patterns.findSome? fun pattern =>
    (pattern.references.find? fun reference => (find? patterns reference).isNone).map
      (.unknownReference pattern.label)

/-- Names are declared once, and placeholders name what is declared. -/
def checkDeclarations (patterns : List NamedPattern) : Except GrammarError Unit :=
  match repeatedName? [] patterns with
  | some name => .error (.duplicateName name)
  | none =>
      match unknownReference? patterns with
      | some error => .error error
      | none => .ok ()

abbrev Expanded := List (String × List Char)

abbrev Expand := StateT Expanded (Except GrammarError)

def labels (patterns : List NamedPattern) : List String :=
  patterns.map label

theorem mem_labels_of_find? {patterns : List NamedPattern} {name : String}
    {pattern : NamedPattern} (h : find? patterns name = some pattern) : name ∈ labels patterns :=
  List.mem_map.mpr ⟨pattern, mem_of_find? h⟩

/-- The text of pieces, with that of every placeholder's target as `expandTarget` has it. -/
def expandPieces (expandTarget : String → Expand (List Char)) :
    List PatternPiece → Expand (List Char)
  | [] => return []
  | .literal text :: pieces => return text ++ (← expandPieces expandTarget pieces)
  | .reference _ target :: pieces => do
      let inner ← expandTarget target
      return inner ++ (← expandPieces expandTarget pieces)

/-- The expansion of a pattern in the place of a placeholder; `path` holds the patterns that
are being expanded, innermost first. -/
def expandReference (patterns : List NamedPattern) (path : List String) (name : String) :
    Expand (List Char) := do
  match (← get).lookup name with
  | some text => return text
  | none =>
      if _hpath : name ∈ path then
        throw (.cycle (name :: (path.takeWhile (· != name)).reverse ++ [name]))
      else
        match _hfind : find? patterns name with
        | none => throw (.unknownReference (path.headD name) name)
        | some pattern =>
            let body ← expandPieces (expandReference patterns (name :: path)) pattern.pieces
            let text := "(?:".toList ++ body ++ [')']
            modify ((name, text) :: ·)
            return text
termination_by unvisited (labels patterns) path
decreasing_by exact unvisited_cons_lt (mem_labels_of_find? _hfind) _hpath

structure Body where
  text : List Char
  properties : List String
  deriving DecidableEq, Repr

def groupName (owner property : String) : String :=
  owner ++ "_" ++ property

def namedGroup (name : String) (body : List Char) : List Char :=
  "(?P<".toList ++ name.toList ++ '>' :: body ++ [')']

/-- Expands the pieces of the pattern `owner`; `seen` holds the properties so far. -/
def expandOwn (patterns : List NamedPattern) (owner : String) (seen : List String) :
    List PatternPiece → Expand Body
  | [] => return ⟨[], []⟩
  | .literal text :: pieces => do
      let body ← expandOwn patterns owner seen pieces
      return { body with text := text ++ body.text }
  | .reference none target :: pieces => do
      let inner ← expandReference patterns [owner] target
      let body ← expandOwn patterns owner seen pieces
      return { body with text := inner ++ body.text }
  | .reference (some property) target :: pieces => do
      let inner ← expandReference patterns [owner] target
      if property ∈ seen then throw (.duplicateProperty owner property)
      let body ← expandOwn patterns owner (property :: seen) pieces
      return ⟨namedGroup (groupName owner property) inner ++ body.text,
        property :: body.properties⟩

def expandAll (patterns : List NamedPattern) : List NamedPattern → Expand (List (String × Body))
  | [] => return []
  | pattern :: rest => do
      if pattern.isPrivate then expandAll patterns rest
      else
        let body ← expandOwn patterns pattern.label [] pattern.pieces
        return (pattern.label, body) :: (← expandAll patterns rest)

def expand (patterns : List NamedPattern) : Except GrammarError (List (String × Body)) := do
  checkDeclarations patterns
  let bodies ← (expandAll patterns patterns).run' []
  if bodies.isEmpty then throw .empty else return bodies

end NamedPattern

end DocMarkup
