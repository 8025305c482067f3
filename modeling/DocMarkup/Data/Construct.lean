import DocMarkup.Data.Value
import DocMarkup.Comment

namespace DocMarkup

open Data

namespace ConstructKind

def name : ConstructKind → String
  | note => "Note"
  | newParagraph => "NewParagraph"
  | newLine => "NewLine"
  | codeStartWithLanguage => "CodeStartWithLanguage"
  | codeStart => "CodeStart"
  | codeEnd => "CodeEnd"
  | property => "Property"
  | signal => "Signal"
  | typeName => "TypeName"
  | enumValue => "EnumValue"
  | parameter => "Parameter"
  | functionCall => "FunctionCall"
  | inclusion => "Include"
  | heading => "Heading"

end ConstructKind

namespace Construct

def kind? : Construct → Option ConstructKind
  | other => none
  | note _ => some .note
  | newParagraph => some .newParagraph
  | newLine => some .newLine
  | codeStart => some .codeStart
  | codeStartWithLanguage _ => some .codeStartWithLanguage
  | codeEnd => some .codeEnd
  | property _ _ => some .property
  | signal _ _ => some .signal
  | typeName _ => some .typeName
  | enumValue _ => some .enumValue
  | parameter _ => some .parameter
  | functionCall _ => some .functionCall
  | inclusion _ => some .inclusion
  | heading _ _ => some .heading

def name (construct : Construct) : String :=
  match construct.kind? with
  | some kind => kind.name
  | none => "Other"

def fields : Construct → List (String × Value)
  | note contents => [("contents", .text contents)]
  | codeStartWithLanguage language => [("language", .text language)]
  | property owner name => [("type_name", .text owner), ("property_name", .text name)]
  | signal owner name => [("type_name", .text owner), ("signal_name", .text name)]
  | typeName name => [("type_name", .text name)]
  | enumValue member => [("member_name", .text member)]
  | parameter name => [("param_name", .text name)]
  | functionCall symbol => [("symbol_name", .text symbol)]
  | inclusion path => [("path", .text path)]
  | heading level title => [("level", .natural level), ("title", .text title)]
  | _ => []

end Construct

end DocMarkup
