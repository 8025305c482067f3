import DocMarkup.Text.Escape

/-!
Page markup as a sequence of chunks.

Whatever is rendered is first a list of chunks, in which a tag is told apart from text; only
`write` turns it into characters. Attribute values are escaped by `write`, text is not.
-/

namespace DocMarkup.Page

abbrev Attributes := List (String × String)

inductive Chunk
  | text (content : String)
  | openTag (name : String) (attributes : Attributes)
  | closeTag (name : String)
  | emptyTag (name : String) (attributes : Attributes)
  deriving DecidableEq, Repr

namespace Chunk

def writeAttribute : String × String → List Char
  | (key, value) =>
      ' ' :: key.toList ++ "=\"".toList ++ (Text.escapeValue value).toList ++ ['"']

def write : Chunk → List Char
  | text content => content.toList
  | openTag name attributes =>
      '<' :: name.toList ++ attributes.flatMap writeAttribute ++ ['>']
  | closeTag name => "</".toList ++ name.toList ++ ['>']
  | emptyTag name attributes =>
      '<' :: name.toList ++ attributes.flatMap writeAttribute ++ "/>".toList

def tag (name : String) (attributes : Attributes) : Option String → List Chunk
  | some content => [.openTag name attributes, .text content, .closeTag name]
  | none => [.emptyTag name attributes]

end Chunk

def write (chunks : List Chunk) : String :=
  String.ofList (chunks.flatMap Chunk.write)

@[simp] theorem toList_write (chunks : List Chunk) :
    (write chunks).toList = chunks.flatMap Chunk.write := by
  simp [write]

@[simp] theorem write_nil : write [] = "" := rfl

theorem write_append (first second : List Chunk) :
    write (first ++ second) = write first ++ write second := by
  simp [write]

end DocMarkup.Page
