import DocMarkup.Repository

/-!
Anchors of gtk-doc references: `GtkWidget`, `gtk-widget-show`, `GTK-ALIGN-FILL:CAPS`.

Types keep their spelling. All else is spelled in lower case with dashes between its words.
-/

namespace DocMarkup

namespace Anchor

def startsLower : List Char → Bool
  | char :: _ => char.isLower
  | [] => false

/-- Puts an underscore before each capital that a small letter follows. After such a capital
nothing is separated up to the end of its small letters, where `inWord` holds. -/
def separateWords (inWord : Bool) : List Char → List Char
  | [] => []
  | [char] => [char]
  | char :: next :: rest =>
      if inWord && char.isLower then char :: separateWords true (next :: rest)
      else if char ≠ '\n' && next.isUpper && startsLower rest then
        char :: '_' :: next :: separateWords true rest
      else char :: separateWords false (next :: rest)

/-- Puts an underscore between a small letter or digit and a capital. -/
def separateCapitals : List Char → List Char
  | [] => []
  | [char] => [char]
  | char :: next :: rest =>
      if (char.isLower || char.isDigit) && next.isUpper then
        char :: '_' :: next :: separateCapitals rest
      else char :: separateCapitals (next :: rest)

def dashedChars (name : List Char) : List Char :=
  (Text.lowerChars (separateCapitals (separateWords false name))).map fun char =>
    if char = '_' then '-' else char

/-- The name in lower case, with dashes between its words and for its underscores. -/
def dashed (name : String) : String :=
  String.ofList (dashedChars name.toList)

end Anchor

namespace Lineage

/-- The names from the namespace down to the entity, each as `spell` has it. -/
def joinNames (space separator : String) (spell : String → String) : Lineage → String
  | top entity => spell space ++ separator ++ spell entity.publicName
  | member entity parent =>
      parent.joinNames space separator spell ++ separator ++ spell entity.publicName

def anchor (space : String) (lineage : Lineage) : String :=
  let kind := lineage.entity.kind
  let name :=
    if kind.isType then lineage.joinNames space "" id
    else lineage.joinNames space "-" Anchor.dashed
  if kind = .constant ∨ kind = .member then Text.upper name ++ ":CAPS" else name

end Lineage

namespace Repository.Ref

variable {repo : Repository}

def anchor (ref : repo.Ref) : String :=
  ref.lineage.anchor ref.namespaceOf.name

end Repository.Ref

end DocMarkup
