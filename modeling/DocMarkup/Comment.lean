import DocMarkup.Grammar.Scan

/-!
The markup of documentation comments.

| Construct         | Written as                               |
|-------------------|------------------------------------------|
| heading           | `# Title`, `## Title`, ...               |
| note              | `> text` on a line of its own            |
| paragraph or line | two line breaks, one line break          |
| code              | from `|[` to `]|`                        |
| property, signal  | `#Type:prop-name`, `#Type::signal-name`  |
| type              | `#Type`                                  |
| enum member       | `%MEMBER`                                |
| parameter         | `@name`                                  |
| function call     | `name()`                                 |
| include           | a path between doubled braces            |
-/

namespace DocMarkup

inductive ConstructKind
  | note
  | newParagraph
  | newLine
  | codeStartWithLanguage
  | codeStart
  | codeEnd
  | property
  | signal
  | typeName
  | enumValue
  | parameter
  | functionCall
  | inclusion
  | heading
  deriving DecidableEq, Repr

/-- A piece of a comment with what its construct names. -/
inductive Construct
  | other
  | note (contents : String)
  | newParagraph
  | newLine
  | codeStart
  | codeStartWithLanguage (language : String)
  | codeEnd
  | property (typeName propertyName : String)
  | signal (typeName signalName : String)
  | typeName (typeName : String)
  | enumValue (memberName : String)
  | parameter (name : String)
  | functionCall (symbolName : String)
  /-- The path has no blanks around it. -/
  | inclusion (path : String)
  /-- The level is the number of leading hashes. -/
  | heading (level : Nat) (title : String)
  deriving DecidableEq, Repr

structure Comment.Token where
  construct : Construct
  text : String
  deriving DecidableEq, Repr

namespace ConstructKind

def ofName? : String → Option ConstructKind
  | "note" => some note
  | "new_paragraph" => some newParagraph
  | "new_line" => some newLine
  | "code_start_with_language" => some codeStartWithLanguage
  | "code_start" => some codeStart
  | "code_end" => some codeEnd
  | "property" => some property
  | "signal" => some signal
  | "type_name" => some typeName
  | "enum_value" => some enumValue
  | "parameter" => some parameter
  | "function_call" => some functionCall
  | "include" => some inclusion
  | "heading" => some heading
  | _ => none

def construct (kind : ConstructKind) (token : Grammar.Token) : Construct :=
  let value (key : String) : String := (token.property? key).getD ""
  match kind with
  | note => .note (value "note_contents")
  | newParagraph => .newParagraph
  | newLine => .newLine
  | codeStartWithLanguage => .codeStartWithLanguage (value "language_name")
  | codeStart => .codeStart
  | codeEnd => .codeEnd
  | property => .property (value "type_name") (value "property_name")
  | signal => .signal (value "type_name") (value "signal_name")
  | typeName => .typeName (value "type_name")
  | enumValue => .enumValue (value "member_name")
  | parameter => .parameter (value "param_name")
  | functionCall => .functionCall (value "symbol_name")
  | inclusion => .inclusion (Text.trim (value "include_name"))
  | heading =>
      .heading (token.text.toList.takeWhile (· == '#')).length (value "heading")

end ConstructKind

namespace Comment

def patterns : List NamedPattern := [
  ⟨"!alpha", "[a-zA-Z0-9_]+"⟩,
  ⟨"!alpha_dash", "[a-zA-Z0-9_-]+"⟩,
  ⟨"!anything", ".*"⟩,
  ⟨"note", "\\n+>\\s*<<note_contents:anything>>\\s*\\n"⟩,
  ⟨"new_paragraph", "\\n\\n"⟩,
  ⟨"new_line", "\\n"⟩,
  ⟨"code_start_with_language",
    "\\|\\[<!--\\s*language\\s*=\\s*\"<<language_name:alpha>>\"\\s*-->"⟩,
  ⟨"code_start", "\\|\\["⟩,
  ⟨"code_end", "\\]\\|"⟩,
  ⟨"property", "#<<type_name:alpha>>:(<<property_name:alpha_dash>>)"⟩,
  ⟨"signal", "#<<type_name:alpha>>::(<<signal_name:alpha_dash>>)"⟩,
  ⟨"type_name", "#(<<type_name:alpha>>)"⟩,
  ⟨"enum_value", "%(<<member_name:alpha>>)"⟩,
  ⟨"parameter", "@<<param_name:alpha>>"⟩,
  ⟨"function_call", "<<symbol_name:alpha>>\\(\\)"⟩,
  ⟨"include", "\\\x7b\\\x7b\\s*<<include_name:anything>>\\s*\\\x7d\\\x7d"⟩,
  ⟨"heading", "#+\\s+<<heading:anything>>"⟩]

def compiled : Except GrammarError Grammar :=
  Grammar.compile patterns

def constructOf (token : Grammar.Token) : Construct :=
  match token.rule, ConstructKind.ofName? token.name with
  | some _, some kind => kind.construct token
  | _, _ => .other

def tokens (grammar : Grammar) (text : String) : List Token :=
  (grammar.scan text).map fun token => ⟨constructOf token, token.text⟩

end Comment

end DocMarkup
