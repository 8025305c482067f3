import DocMarkup.Render.Renderer
import DocMarkup.Render.State

/-!
The rendering of single constructs.

Each construct gives markup that fits the state in which it is met: paragraphs, sections and
code are opened and closed as tags of their own. What a construct refers to may not be found;
then it shows as it is written.
-/

namespace DocMarkup

namespace Renderer

variable {repo : Repository}

/-- Where an included file may be, in the order in which it is looked for. -/
def candidates (renderer : Renderer repo) (name : Path) : List Path :=
  name :: renderer.includePaths.map fun directory => directory.join name

/-- The first candidate that can be read, with its text. What is no UTF-8 is replaced. -/
def findFile? (renderer : Renderer repo) (name : Path) : Option (Path × String) :=
  (renderer.candidates name).findSome? fun path =>
    (renderer.files.read? path).map fun bytes => (path, Text.Utf8.decodeLossy bytes)

def tokens (renderer : Renderer repo) (text : String) : List Comment.Token :=
  Comment.tokens renderer.grammar text

/-- What becomes of a construct: its output with the state after it, or text to be rendered
in its place. -/
inductive Rendering
  | finished (output : Output) (after : RenderState)
  | splice (path : Path) (text : String)

namespace Rendering

def chunks (after : RenderState) (chunks : List Page.Chunk) : Rendering :=
  .finished (.ofChunks chunks) after

/-- A reference shows as it is written if nothing was found for it. -/
def reference (state : RenderState) (text : String) (link : Option Output) : Rendering :=
  .finished (link.getD (.ofText text)) state

end Rendering

open Page in
def codeTags (language : Option String) : List Chunk :=
  let attributes := (language.bind Language.mediaTypeOfTag?).toList.map (("mime", ·))
  [.closeTag "p", .openTag "code" attributes]

open Page in
def noteTags (contents : String) : List Chunk :=
  [.closeTag "p", .openTag "note" [], .openTag "p" [], .text (Text.escape contents),
    .closeTag "p", .closeTag "note", .openTag "p" []]

open Page in
def titleTags (title : String) : List Chunk :=
  [.openTag "title" [], .text (Text.escape title), .closeTag "title", .openTag "p" []]

/-- An include is a notice beside the construct as it is written, plain text in code, or text
to be rendered in its place. -/
def renderInclusion (renderer : Renderer repo) (state : RenderState) (name text : String) :
    Rendering :=
  let refused (notice : Notice) : Rendering :=
    .finished (.ofText text ++ { notices := [notice] }) state
  match renderer.findFile? name with
  | none => refused (.missingFile name)
  | some (path, contents) =>
      if Path.components path ∈ state.including then refused (.recursiveInclude path)
      else if state.inCode then .finished (renderer.plainText contents) state
      else .splice path contents

def renderToken (renderer : Renderer repo) (owner : Option repo.Ref) (state : RenderState)
    (token : Comment.Token) : Rendering :=
  let reference := Rendering.reference state token.text
  match token.construct with
  | .other => .finished (renderer.plainText token.text) state
  | .newLine => .chunks state [.text "\n"]
  | .newParagraph =>
      if state.inCode then .chunks state [.text "\n\n"]
      else .chunks state [.closeTag "p", .openTag "p" []]
  | .codeStart => .chunks state.enterCode (codeTags none)
  | .codeStartWithLanguage language => .chunks state.enterCode (codeTags (some language))
  | .codeEnd => .chunks state.leaveCode [.closeTag "code", .openTag "p" []]
  | .note contents =>
      if state.inCode then reference none else .chunks state (noteTags contents)
  | .heading level title =>
      if state.inCode then reference none
      else
        .chunks (state.atHeading level)
          (.closeTag "p" :: state.headingTags level ++ titleTags title)
  | .property typeName propertyName =>
      reference (renderer.propertyLink? typeName propertyName)
  | .signal typeName signalName => reference (renderer.signalLink? typeName signalName)
  | .typeName typeName => reference (renderer.typeLink? typeName)
  | .enumValue member => reference (renderer.enumValue? member)
  | .parameter name => reference (renderer.parameter? owner name)
  | .functionCall symbol => reference (renderer.callLink? symbol token.text)
  | .inclusion name => renderer.renderInclusion state name token.text

end Renderer

end DocMarkup
