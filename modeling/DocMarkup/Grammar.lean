import DocMarkup.Grammar.Expansion
import DocMarkup.Pattern.Matching
import DocMarkup.Pattern.Reading

/-!
Grammars: a list of named patterns compiled into one, of which the first that matches wins.
-/

namespace DocMarkup

/-- A public pattern of a grammar: its name, which is also that of its group, and its
properties with the groups that capture them. -/
structure Grammar.Rule where
  name : String
  properties : List (String × String)
  deriving DecidableEq, Repr

structure Grammar where
  source : String
  pattern : Pattern
  rules : List Grammar.Rule
  deriving DecidableEq, Repr

namespace Grammar

open NamedPattern in
def ruleOf (name : String) (body : Body) : Rule :=
  ⟨name, body.properties.map fun property => (property, groupName name property)⟩

open NamedPattern in
/-- The rules next to each other, each in the group of its name. -/
def sourceOf : List (String × Body) → List Char
  | [] => []
  | [(name, body)] => namedGroup name body.text
  | (name, body) :: rest => namedGroup name body.text ++ '|' :: sourceOf rest

/-- All groups that a rule relies on. -/
def groupsOf (rule : Rule) : List String :=
  rule.name :: rule.properties.map Prod.snd

def compile [UnicodeClasses] (patterns : List NamedPattern) : Except GrammarError Grammar := do
  let bodies ← NamedPattern.expand patterns
  let source := sourceOf bodies
  let rules := bodies.map fun (name, body) => ruleOf name body
  match Expression.read? source with
  | none => throw .invalidPattern
  | some expression =>
      let pattern := expression.pattern
      let groups := pattern.groups
      if rules.all fun rule => (groupsOf rule).all groups.contains then
        return ⟨String.ofList source, pattern, rules⟩
      else throw .invalidPattern

end Grammar

end DocMarkup
