import DocMarkup.Render.Inclusion
import DocMarkup.Unvisited

/-!
The rendering of comments.

A comment is rendered construct by construct, each a step that leads from one state to the
next, and included text takes the place of the construct that includes it. A file is not
included again inside itself, so rendering ends for every set of files. A document is a
paragraph to begin with, and all that it leaves open is closed.
-/

namespace DocMarkup

namespace Renderer

variable {repo : Repository}

/-- A construct as it is met and what it gives there. -/
structure Step where
  before : RenderState
  token : Comment.Token
  output : Output
  after : RenderState

/-- Renders constructs that all occur in `document` or a file. Those of included text stand
where it is included, and with the last of them comes the state after all. -/
def walk (renderer : Renderer repo) (owner : Option repo.Ref) (document : List Comment.Token)
    (state : RenderState) (tokens : List Comment.Token)
    (reachable : ∀ token ∈ tokens, token ∈ renderer.reachable document) :
    List Step × RenderState :=
  match tokens with
  | [] => ([], state)
  | token :: rest =>
      have hrest := fun other h => reachable other (List.mem_cons_of_mem token h)
      match h : renderer.renderToken owner state token with
      | .finished output after =>
          let (later, last) := walk renderer owner document after rest hrest
          (⟨state, token, output, after⟩ :: later, last)
      | .splice path text =>
          let (inner, after) :=
            walk renderer owner document (state.enterFile (Path.components path))
              (renderer.tokens text)
              (splice_reachable h (reachable token List.mem_cons_self)).2.2.2
          let (later, last) := walk renderer owner document (after.leaveFile state) rest hrest
          (inner ++ later, last)
termination_by
  unvisited (renderer.inclusions document) state.including * renderer.fileTokens.length +
    tokens.length
decreasing_by
  · simp only [List.length_cons, renderToken_including h]
    omega
  · obtain ⟨hmem, hnew, hlength, -⟩ := splice_reachable h (reachable token List.mem_cons_self)
    have hlt := unvisited_cons_lt hmem hnew
    have hle := Nat.mul_le_mul_right renderer.fileTokens.length (Nat.succ_le_of_lt hlt)
    simp only [RenderState.enterFile, List.length_cons]
    rw [Nat.succ_mul] at hle
    omega
  · simp only [RenderState.leaveFile, List.length_cons]
    omega

def trace (renderer : Renderer repo) (owner : Option repo.Ref) (state : RenderState)
    (text : String) : List Step × RenderState :=
  renderer.walk owner (renderer.tokens text) state (renderer.tokens text)
    fun _ h => List.mem_append_left _ h

def inline (renderer : Renderer repo) (owner : Option repo.Ref) (state : RenderState)
    (text : String) : Output × RenderState :=
  let (steps, last) := renderer.trace owner state text
  (.join (steps.map Step.output), last)

/-- Renders a comment. Outside code it is a paragraph, at whose end code is closed; sections
are closed in any case. -/
def document (renderer : Renderer repo) (owner : Option repo.Ref) (state : RenderState)
    (text : String) : Output × RenderState :=
  let (output, after) := renderer.inline owner state text
  let ends : Output := .ofChunks after.sectionEnds
  if state.inCode then (output ++ ends, after.leaveSections)
  else
    let codeEnd : List Page.Chunk :=
      if after.inCode then [.closeTag "code", .openTag "p" []] else []
    (.ofChunks [.openTag "p" []] ++ output ++ .ofChunks (codeEnd ++ [.closeTag "p"]) ++ ends,
      after.leaveCode.leaveSections)

def comment (renderer : Renderer repo) (owner : Option repo.Ref) (text : Option String) :
    Output :=
  match text with
  | some text => (renderer.document owner {} text).1
  | none => {}

end Renderer

end DocMarkup
