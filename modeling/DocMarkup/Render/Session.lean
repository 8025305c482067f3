import DocMarkup.Render.Document
import DocMarkup.Render.Navigation

/-!
Sessions: calls of one renderer, one after the other.

All that a call leaves for later ones are the names of the namespaces whose references were
reported, so that each of them is reported once.
-/

namespace DocMarkup

inductive Call (repo : Repository)
  | comment (owner : Option repo.Ref) (text : Option String)
  | link (ref : Option repo.Ref) (text : Option String) (plural : Bool)
  | hierarchy (ref : repo.Ref)

/-- The names in the order of their characters. -/
def Notice.sortedNames (reported : List String) : List String :=
  reported.mergeSort fun first second => decide (first ≤ second)

namespace Renderer

variable {repo : Repository}

def answer (renderer : Renderer repo) : Call repo → Output
  | .comment owner text => renderer.comment owner text
  | .link ref text plural => renderer.link ref text plural
  | .hierarchy ref => renderer.hierarchyTree ref

/-- What a call gives, and the notices that are issued with it. -/
structure Reply where
  markup : String
  issued : List Notice
  deriving DecidableEq, Repr

def reply (renderer : Renderer repo) (reported : List String) (call : Call repo) :
    Reply × List String :=
  let output := renderer.answer call
  let (issued, reported) := Notice.report reported output.notices
  (⟨output.markup, issued⟩, reported)

def session (renderer : Renderer repo) (reported : List String) :
    List (Call repo) → List Reply × List String
  | [] => ([], reported)
  | call :: rest =>
      let (first, reported) := renderer.reply reported call
      let (later, reported) := renderer.session reported rest
      (first :: later, reported)

def reportedNames (renderer : Renderer repo) (calls : List (Call repo)) : List String :=
  Notice.sortedNames (renderer.session [] calls).2

end Renderer

end DocMarkup
