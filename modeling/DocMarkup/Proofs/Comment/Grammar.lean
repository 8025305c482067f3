import DocMarkup.Comment
import DocMarkup.Proofs.Grammar.Pieces
import DocMarkup.Render.Renderer

/-!
The grammar of comments as it is matched.

Compiling the named patterns of comments gives one pattern. It is written down here, and every
renderer has it.
-/

namespace DocMarkup

namespace Comment

open Pattern (oneOf seq alt oneOrMore loop group)

def literal (char : Char) : Pattern :=
  oneOf (.single char)

def sequence : List Pattern → Pattern
  | [] => .empty
  | [last] => last
  | first :: rest => seq first (sequence rest)

def choice : List Pattern → Pattern
  | [] => .empty
  | [last] => last
  | first :: rest => alt first (choice rest)

def wordChar : CharSet :=
  .union (.range 'a' 'z') (.union (.range 'A' 'Z') (.union (.range '0' '9') (.single '_')))

def dashedWordChar : CharSet :=
  .union (.range 'a' 'z')
    (.union (.range 'A' 'Z') (.union (.range '0' '9') (.union (.single '_') (.single '-'))))

def word : Pattern := oneOrMore true (oneOf wordChar)

def dashedWord : Pattern := oneOrMore true (oneOf dashedWordChar)

def blanks : Pattern := loop true (oneOf .blank)

def lineRest : Pattern := loop true (oneOf (.complement (.single '\n')))

def languageComment : List Pattern :=
  "|[<!--".toList.map literal ++ [blanks] ++ "language".toList.map literal ++
    [blanks, literal '=', blanks, literal '"',
      group "code_start_with_language_language_name" word, literal '"', blanks] ++
    "-->".toList.map literal

def functionCall : Pattern :=
  sequence [group "function_call_symbol_name" word, literal '(', literal ')']

def heading : Pattern :=
  sequence [oneOrMore true (literal '#'), oneOrMore true (oneOf .blank),
    group "heading_heading" lineRest]

def bodies : List (String × Pattern) := [
  ("note", sequence [oneOrMore true (literal '\n'), literal '>', blanks,
    group "note_note_contents" lineRest, blanks, literal '\n']),
  ("new_paragraph", sequence [literal '\n', literal '\n']),
  ("new_line", literal '\n'),
  ("code_start_with_language", sequence languageComment),
  ("code_start", sequence [literal '|', literal '[']),
  ("code_end", sequence [literal ']', literal '|']),
  ("property", sequence [literal '#', group "property_type_name" word, literal ':',
    group "property_property_name" dashedWord]),
  ("signal", sequence [literal '#', group "signal_type_name" word, literal ':', literal ':',
    group "signal_signal_name" dashedWord]),
  ("type_name", sequence [literal '#', group "type_name_type_name" word]),
  ("enum_value", sequence [literal '%', group "enum_value_member_name" word]),
  ("parameter", sequence [literal '@', group "parameter_param_name" word]),
  ("function_call", functionCall),
  ("include", sequence [literal '\x7b', literal '\x7b', blanks,
    group "include_include_name" lineRest, blanks, literal '\x7d', literal '\x7d']),
  ("heading", heading)]

def pattern : Pattern :=
  choice (bodies.map fun (name, body) => group name body)

def rules : List Grammar.Rule := [
  ⟨"note", [("note_contents", "note_note_contents")]⟩,
  ⟨"new_paragraph", []⟩,
  ⟨"new_line", []⟩,
  ⟨"code_start_with_language", [("language_name", "code_start_with_language_language_name")]⟩,
  ⟨"code_start", []⟩,
  ⟨"code_end", []⟩,
  ⟨"property", [("type_name", "property_type_name"),
    ("property_name", "property_property_name")]⟩,
  ⟨"signal", [("type_name", "signal_type_name"), ("signal_name", "signal_signal_name")]⟩,
  ⟨"type_name", [("type_name", "type_name_type_name")]⟩,
  ⟨"enum_value", [("member_name", "enum_value_member_name")]⟩,
  ⟨"parameter", [("param_name", "parameter_param_name")]⟩,
  ⟨"function_call", [("symbol_name", "function_call_symbol_name")]⟩,
  ⟨"include", [("include_name", "include_include_name")]⟩,
  ⟨"heading", [("heading", "heading_heading")]⟩]

/-- The grammar matches as that of comments does. Renderers are created with no other one. -/
structure IsGrammar (grammar : Grammar) : Prop where
  pattern_eq : grammar.pattern = pattern
  rules_eq : grammar.rules = rules

theorem compiled_eq :
    compiled.toOption.map (fun grammar => (grammar.pattern, grammar.rules)) =
      some (pattern, rules) := by
  decide +kernel

theorem isGrammar_of_compiled {grammar : Grammar} (h : compiled = .ok grammar) :
    IsGrammar grammar := by
  have heq : some (grammar.pattern, grammar.rules) = some (pattern, rules) := by
    rw [← compiled_eq, h]
    rfl
  obtain ⟨hpattern, hrules⟩ := Prod.mk.inj (Option.some.inj heq)
  exact ⟨hpattern, hrules⟩

/-- What the pattern is read from. -/
def source : String :=
  String.ofList (((NamedPattern.expand patterns).toOption.map Grammar.sourceOf).getD [])

theorem compiled_eq_ok : compiled = .ok ⟨source, pattern, rules⟩ := by
  cases hcompiled : compiled with
  | error error =>
      have hnone := compiled_eq
      rw [hcompiled] at hnone
      cases hnone
  | ok grammar =>
      obtain ⟨bodies, hexpand⟩ := NamedPattern.expand_of_compile hcompiled
      obtain ⟨expression, -, hgrammar, -⟩ := NamedPattern.compile_eq_ok hexpand hcompiled
      have hsource : grammar.source = source := by
        rw [hgrammar, source, hexpand]
        rfl
      obtain ⟨hpattern, hrules⟩ := isGrammar_of_compiled hcompiled
      rw [← hsource, ← hpattern, ← hrules]

end Comment

def Repository.bare : Repository :=
  .ofDecl { space := { name := "Gtk", version := "3.0" } }

def Renderer.bare : Renderer .bare where
  grammar := { source := Comment.source, pattern := Comment.pattern, rules := Comment.rules }
  style := { language := .c }

theorem Renderer.create_eq_bare : Renderer.create {} {} = .ok Renderer.bare := by
  have hlanguage : Language.ofName? ({} : Settings).language = some .c := by decide +kernel
  rw [Renderer.create, hlanguage, Comment.compiled_eq_ok]
  rfl

theorem Renderer.isGrammar_bare : Comment.IsGrammar Renderer.bare.grammar :=
  ⟨rfl, rfl⟩

/-- Every renderer that is created has the grammar of comments. -/
theorem Renderer.isGrammar_of_create {repo : Repository} {settings : Settings}
    {files : FileSystem} {renderer : Renderer repo}
    (h : Renderer.create settings files = .ok renderer) : Comment.IsGrammar renderer.grammar := by
  unfold Renderer.create at h
  split at h
  · cases h
  · cases h
  · next language grammar hlanguage hcompiled =>
      cases h
      exact Comment.isGrammar_of_compiled hcompiled

end DocMarkup
