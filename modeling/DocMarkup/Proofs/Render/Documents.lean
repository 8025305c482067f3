import DocMarkup.Proofs.Comment.Grammar
import DocMarkup.Proofs.Render.Inclusions

/-!
Documents one after the other.

Each file that is entered goes on the stack, and what is taken off the stack at its end is that
file. So at the end of a document the stack is the one at its start, whichever files were not
found, included themselves or ended in code, and nothing of a document is left for the next one.
-/

namespace DocMarkup

namespace Renderer

variable {repo : Repository} {renderer : Renderer repo} {owner : Option repo.Ref}

def documentsInTurn (renderer : Renderer repo) :
    RenderState → List (Option repo.Ref × String) → List Output × RenderState
  | state, [] => ([], state)
  | state, (owner, text) :: rest =>
      let (output, after) := renderer.document owner state text
      let (later, last) := documentsInTurn renderer after rest
      (output :: later, last)

/-- The files on the stack are those that are being included, above what was there before. -/
def Progress.Above (outside : List (List String)) (progress : Progress) : Prop :=
  ∃ files, progress.state.including = files ++ outside ∧ files.length + 1 = progress.left.length

theorem above_start (state : RenderState) (text : String) :
    (Progress.start renderer state text).Above state.including :=
  ⟨[], rfl, rfl⟩

theorem Advances.above {outside : List (List String)} {before after : Progress}
    (h : Advances renderer owner before after) (hbefore : before.Above outside) :
    after.Above outside := by
  obtain ⟨files, hfiles, hlength⟩ := hbefore
  cases h with
  | construct hrendered => exact ⟨files, (renderToken_including hrendered).trans hfiles, hlength⟩
  | @enter done state token rest outer path text hrendered =>
      exact ⟨Path.components path :: files, congrArg (Path.components path :: ·) hfiles,
        congrArg (· + 1) hlength⟩
  | leave =>
      cases files with
      | nil => simp at hlength
      | cons file files =>
          exact ⟨files, congrArg List.tail hfiles, Nat.succ.inj hlength⟩

theorem above_of_run {state : RenderState} {text : String} {progress : Progress}
    (hrun : Relation.ReflTransGen (Advances renderer owner) (.start renderer state text)
      progress) : progress.Above state.including := by
  induction hrun with
  | refl => exact above_start state text
  | tail _ hstep ih => exact hstep.above ih

theorem run_document (renderer : Renderer repo) (owner : Option repo.Ref) (state : RenderState)
    (text : String) :
    Relation.ReflTransGen (Advances renderer owner) (.start renderer state text)
      ⟨renderer.steps owner state text, (renderer.inline owner state text).2, [[]]⟩ :=
  walk_advances _ [] []

theorem inline_including (renderer : Renderer repo) (owner : Option repo.Ref)
    (state : RenderState) (text : String) :
    (renderer.inline owner state text).2.including = state.including := by
  obtain ⟨files, hfiles, hlength⟩ := above_of_run (run_document renderer owner state text)
  cases files with
  | nil => exact hfiles
  | cons file files => simp at hlength

theorem state_document (renderer : Renderer repo) (owner : Option repo.Ref) {state : RenderState}
    (text : String) (hcode : state.inCode = false) :
    (renderer.document owner state text).2 =
      (renderer.inline owner state text).2.leaveCode.leaveSections := by
  simp [document, hcode]

theorem document_outside (renderer : Renderer repo) (owner : Option repo.Ref)
    {state : RenderState} (text : String) (hcode : state.inCode = false) :
    (renderer.document owner state text).2 =
      { inCode := false, openSections := 0, including := state.including } := by
  rw [state_document renderer owner text hcode, ← inline_including renderer owner state text]
  rfl

theorem documentsInTurn_fresh (renderer : Renderer repo)
    (documents : List (Option repo.Ref × String)) :
    renderer.documentsInTurn {} documents =
      (documents.map fun (owner, text) => renderer.comment owner (some text), {}) := by
  induction documents with
  | nil => rfl
  | cons first rest ih =>
      obtain ⟨owner, text⟩ := first
      have hafter : (renderer.document owner {} text).2 = {} :=
        document_outside renderer owner text rfl
      simp only [documentsInTurn, hafter, ih, List.map_cons, comment]

/-- A document that starts outside code leaves its state outside code, with no section open and
with the stack of files it started with. While it is rendered the stack is what it was at the
start with one more file for each that is being included, by whatever way the end is reached. So
documents that share a state give what each of them gives with a state of its own. -/
theorem documents_apart (renderer : Renderer repo) :
    (∀ owner state text, state.inCode = false →
      (renderer.document owner state text).2 =
        { inCode := false, openSections := 0, including := state.including } ∧
      ∃ last, Relation.ReflTransGen (Advances renderer owner) (.start renderer state text)
          ⟨renderer.steps owner state text, last, [[]]⟩ ∧
        (renderer.document owner state text).2 = last.leaveCode.leaveSections) ∧
    (∀ owner state text progress,
      Relation.ReflTransGen (Advances renderer owner) (.start renderer state text) progress →
        progress.Above state.including) ∧
    ∀ documents, renderer.documentsInTurn {} documents =
      (documents.map fun (owner, text) => renderer.comment owner (some text), {}) := by
  refine ⟨fun owner state text hcode => ?_, fun owner state text progress => above_of_run,
    documentsInTurn_fresh renderer⟩
  exact ⟨document_outside renderer owner text hcode, _, run_document renderer owner state text,
    state_document renderer owner text hcode⟩

def looping : Renderer .bare :=
  { bare with files := { files := [(["loop"], Text.Utf8.encode "# Again\n{{loop}} |[")] } }

theorem tokens_looping : looping.tokens "{{loop}}" = [⟨.inclusion "loop", "{{loop}}"⟩] := by
  decide +kernel

theorem renderToken_looping {state : RenderState} (hcode : state.inCode = false)
    (hnew : Path.components "loop" ∉ state.including) :
    looping.renderToken none state ⟨.inclusion "loop", "{{loop}}"⟩ =
      .splice "loop" "# Again\n{{loop}} |[" := by
  have hfind : looping.findFile? "loop" = some ("loop", "# Again\n{{loop}} |[") := by
    decide +kernel
  simp [renderToken, renderInclusion, hfind, hcode, hnew]

/-- In the file that is entered there are two files on the stack, and after the document one. -/
theorem documents_apart_looping :
    (looping.document none { including := [["outer"]] } "{{loop}}").2 =
        { including := [["outer"]] } ∧
      ∃ progress, Relation.ReflTransGen (Advances looping none)
          (.start looping { including := [["outer"]] } "{{loop}}") progress ∧
        progress.state.including = [["loop"], ["outer"]] ∧ progress.Above [["outer"]] := by
  obtain ⟨hstates, hstack, -⟩ := documents_apart looping
  have henter : Advances looping none (.start looping { including := [["outer"]] } "{{loop}}")
      ⟨[], { including := [Path.components "loop", ["outer"]] },
        [looping.tokens "# Again\n{{loop}} |[", []]⟩ := by
    rw [Progress.start, tokens_looping]
    exact .enter (renderToken_looping rfl (by decide +kernel))
  have hcomponents : Path.components "loop" = ["loop"] := by decide +kernel
  rw [hcomponents] at henter
  exact ⟨(hstates none { including := [["outer"]] } "{{loop}}" rfl).1, _, .single henter, rfl,
    hstack _ _ _ _ (.single henter)⟩

end Renderer

end DocMarkup
