import DocMarkup.Page.Chunk
import DocMarkup.Text.Blank

/-!
Trees of page markup, with the text before an element's first child and the text after its
closing tag, and the usual two-space indentation of such trees.
-/

namespace DocMarkup.Page

structure Element where
  name : String
  attributes : Attributes := []
  text : Option String := none
  tail : Option String := none
  children : List Element := []
  deriving Repr

namespace Element

def escapedText : Option String → List Chunk
  | some text => [.text (Text.escape text)]
  | none => []

mutual

def chunks : Element → List Chunk
  | ⟨name, attributes, text, tail, children⟩ =>
      (if text.isNone && children.isEmpty then [.emptyTag name attributes]
        else .openTag name attributes ::
          (escapedText text ++ childChunks children ++ [.closeTag name])) ++
        escapedText tail

def childChunks : List Element → List Chunk
  | [] => []
  | child :: rest => chunks child ++ childChunks rest

end

def markup (element : Element) : String :=
  write element.chunks

def lineBreak (level : Nat) : String :=
  String.ofList ('\n' :: List.replicate (2 * level) ' ')

def replaceBlank (text : Option String) (replacement : String) : Option String :=
  if Text.onlyBlank text then some replacement else text

def withBlankTail (element : Element) (tail : String) : Element :=
  { element with tail := replaceBlank element.tail tail }

/-- Applies `change` to the last element. -/
def modifyLast (change : Element → Element) : List Element → List Element
  | [] => []
  | [last] => [change last]
  | element :: rest => element :: modifyLast change rest

mutual

/-- Writes the indentation into blank text and blank tails: children stand one level deeper,
and the last child's tail brings the closing tag back to this level. -/
def indent (level : Nat) : Element → Element
  | ⟨name, attributes, text, tail, []⟩ =>
      let tail := if level = 0 then tail else replaceBlank tail (lineBreak level)
      ⟨name, attributes, text, tail, []⟩
  | ⟨name, attributes, text, tail, child :: rest⟩ =>
      ⟨name, attributes, replaceBlank text (lineBreak level ++ "  "),
        replaceBlank tail (lineBreak level),
        modifyLast (withBlankTail · (lineBreak level))
          (indent (level + 1) child :: indentAll (level + 1) rest)⟩

def indentAll (level : Nat) : List Element → List Element
  | [] => []
  | child :: rest => indent level child :: indentAll level rest

end

end Element

end DocMarkup.Page
