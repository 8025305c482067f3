import DocMarkup.Link.PageId

namespace DocMarkup

inductive Language
  | c
  | python
  | gjs
  deriving DecidableEq, Repr

namespace Language

/-- Languages are named in any case of ASCII letters. -/
def ofName? (name : String) : Option Language :=
  match Text.lowerAscii name with
  | "c" => some c
  | "python" => some python
  | "gjs" => some gjs
  | _ => none

def name : Language → String
  | c => "C"
  | python => "Python"
  | gjs => "Gjs"

def mediaType : Language → String
  | c => "text/x-csrc"
  | python => "text/python"
  | gjs => "text/x-gjs"

def taggedMediaTypes : List (String × String) := [
  ("bash-script", "application/x-shellscript"),
  ("shell", "application/x-shellscript"),
  ("csharp", "text/x-csharp"),
  ("css", "text/css"),
  ("diff", "text/xpatch"),
  ("html", "text/html"),
  ("java", "text/x-java"),
  ("javascript", "application/javascript"),
  ("lisp", "text/x-scheme"),
  ("lua", "text/x-lua"),
  ("c", "text/x-csrc"),
  ("c++", "text/x-c++src"),
  ("pascal", "text/x-pascal"),
  ("perl", "application/x-perl"),
  ("php", "application/x-php"),
  ("python", "text/x-python"),
  ("ruby", "application/x-ruby"),
  ("sql", "text/x-sql"),
  ("yaml", "application/x-yaml")]

/-- The media type of a code block that is tagged with a language, in any case. -/
def mediaTypeOfTag? (tag : String) : Option String :=
  taggedMediaTypes.lookup (Text.lowerAscii tag)

/-- How `%TRUE`, `%FALSE` and `%NULL` are spelled. -/
def literal? : Language → String → Option String
  | c, "TRUE" => some "TRUE"
  | c, "FALSE" => some "FALSE"
  | c, "NULL" => some "NULL"
  | python, "TRUE" => some "True"
  | python, "FALSE" => some "False"
  | python, "NULL" => some "None"
  | gjs, "TRUE" => some "true"
  | gjs, "FALSE" => some "false"
  | gjs, "NULL" => some "null"
  | _, _ => none

def spelledParameter (language : Language) (kind : EntityKind) (parameter : Parameter) : String :=
  let isInstance := kind.callable?.any (·.isReceiver parameter)
  if language = python ∧ kind.isMethod ∧ isInstance then "self"
  else if parameter.varargs then "..."
  else parameter.name

/-- Underscores for hyphens, or before the capitals that start a word of a field's name. -/
def underscored (entity : Entity) : String :=
  let rec words (previous : Option Char) : List Char → List Char
    | [] => []
    | char :: rest =>
        let starts := char.isUpper && previous.any fun before => !before.isUpper && before != '_'
        (if starts then ['_', char.toLower] else [char.toLower]) ++ words (some char) rest
  if entity.kind.isProperty then
    String.ofList (entity.name.toList.map fun char => if char = '-' then '_' else char)
  else String.ofList (words none entity.name.toList)

/-- The name of a function, `owner` being the page name of what it is declared in. -/
def functionTitleOf (language : Language) (entity : Entity) (owner : Option String) : String :=
  match language with
  | c => if entity.kind.isFunction then entity.symbol.getD entity.name else entity.name
  | python =>
      match owner with
      | some owner => owner ++ "." ++ entity.name
      | none => entity.name
  | gjs =>
      match owner with
      | some owner =>
          if entity.kind.isMethod then owner ++ ".prototype." ++ entity.publicName
          else owner ++ "." ++ entity.publicName
      | none => entity.publicName

/-- The name of a page for readers. -/
def lineagePageTitle (language : Language) (space : String) : Lineage → String
  | .top entity =>
      if entity.kind.isFunction then language.functionTitleOf entity none
      else (Lineage.top entity).pageId space
  | .member entity parent =>
      let owner := language.lineagePageTitle space parent
      match entity.kind, language with
      | .field, gjs => owner ++ "." ++ underscored entity
      | .property _, gjs => owner ++ "." ++ underscored entity
      | .function _, _ => language.functionTitleOf entity (some owner)
      | .property _, _ => owner ++ ":" ++ entity.name
      | .signal _, _ => owner ++ "::" ++ entity.name
      | .virtualFunction _, _ => owner ++ "::" ++ entity.name
      | .field, _ => owner ++ "->" ++ entity.name
      | _, _ => (Lineage.member entity parent).pageId space

def lineageFunctionTitle (language : Language) (space : String) (lineage : Lineage) : String :=
  language.functionTitleOf lineage.entity
    (lineage.parent?.map (language.lineagePageTitle space))

variable {repo : Repository}

def pageTitle (language : Language) (ref : repo.Ref) : String :=
  language.lineagePageTitle ref.namespaceOf.name ref.lineage

def functionTitle (language : Language) (ref : repo.Ref) : String :=
  language.lineageFunctionTitle ref.namespaceOf.name ref.lineage

def hidesFields : EntityKind → Bool
  | .classType _ _ _ => true
  | .unionType => true
  | _ => false

def documentsLineage (language : Language) (lineage : Lineage) : Bool :=
  let entity := lineage.entity
  !entity.isPrivate &&
    (language == c ||
      (entity.isIntrospectable && !entity.kind.isShadowed &&
        match language with
        | c => true
        | python => !entity.kind.isConstructor
        | gjs =>
            !(entity.kind == .field &&
              lineage.parent?.any fun parent => hidesFields parent.entity.kind)))

def documents (language : Language) (ref : repo.Ref) : Bool :=
  language.documentsLineage ref.lineage

end Language

end DocMarkup
