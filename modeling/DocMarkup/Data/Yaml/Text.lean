/-!
Characters and line breaks of YAML.

Line breaks of the older kinds all read as line feeds. The two separators that only Unicode
has break lines as well, but stay what they are.
-/

namespace DocMarkup.Data.Yaml

def isBlank (char : Char) : Bool :=
  char == ' ' || char == '\t'

def isBreak (char : Char) : Bool :=
  char == '\n' || char == '\u2028' || char == '\u2029'

def endsWord : List Char → Bool
  | [] => true
  | char :: _ => isBlank char || isBreak char

/-- The text with line feeds for all line breaks but the separators. -/
def normalized : List Char → List Char
  | [] => []
  | '\r' :: '\n' :: rest => '\n' :: normalized rest
  | '\r' :: rest => '\n' :: normalized rest
  | '\u0085' :: rest => '\n' :: normalized rest
  | char :: rest => char :: normalized rest

/-- Whether a character may stand in a text at all. -/
def isAllowed (char : Char) : Bool :=
  let code := char.toNat
  char == '\t' || char == '\n' || (0x20 ≤ code && code ≤ 0x7E) ||
    (0xA0 ≤ code && code ≤ 0xFFFD) || 0x10000 ≤ code

def isOrderMark (char : Char) : Bool :=
  char == '\ufeff'

/-- Whether three dashes or dots stand as a word of their own. -/
def isDocumentMark : List Char → Bool
  | '-' :: '-' :: '-' :: rest => endsWord rest
  | '.' :: '.' :: '.' :: rest => endsWord rest
  | _ => false

structure Place where
  line : Nat := 0
  column : Nat := 0
  index : Nat := 0
  deriving DecidableEq, Repr

namespace Place

def after (place : Place) (char : Char) : Place :=
  if isBreak char then ⟨place.line + 1, 0, place.index + 1⟩
  else { place with column := place.column + 1, index := place.index + 1 }

end Place

end DocMarkup.Data.Yaml
