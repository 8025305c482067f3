import DocMarkup.Proofs.Page.Tags
import DocMarkup.Render.Document

/-!
The steps in which a comment is rendered.

Each step starts in the state in which the one before it ends, whether or not an included file
starts or ends between them. So what one step does to a reader of its tags, all steps do.
-/

namespace DocMarkup

/-- What the rendering of constructs depends on and included files share: whether it is in
code, and how many sections are open. -/
def RenderState.mode (state : RenderState) : Bool × Nat :=
  (state.inCode, state.openSections)

namespace Renderer

variable {repo : Repository} {renderer : Renderer repo} {owner : Option repo.Ref}

/-- A step does what its construct does in the state before it, and its construct is one of
some text. -/
structure Step.Sound (renderer : Renderer repo) (owner : Option repo.Ref) (step : Step) :
    Prop where
  rendered : renderer.renderToken owner step.before step.token = .finished step.output step.after
  scanned : ∃ text, step.token ∈ renderer.tokens text

/-- The steps lead from one state to another without a change of mode between them. -/
def Leads : RenderState → List Step → RenderState → Prop
  | first, [], last => first.mode = last.mode
  | first, step :: rest, last => first.mode = step.before.mode ∧ Leads step.after rest last

theorem Leads.of_mode {first first' last : RenderState} {steps : List Step}
    (hmode : first'.mode = first.mode) (h : Leads first steps last) :
    Leads first' steps last := by
  cases steps with
  | nil => exact hmode.trans h
  | cons step rest => exact ⟨hmode.trans h.1, h.2⟩

theorem Leads.append {first middle middle' last : RenderState} {steps later : List Step}
    (h : Leads first steps middle) (hmode : middle.mode = middle'.mode)
    (hlater : Leads middle' later last) : Leads first (steps ++ later) last := by
  induction steps generalizing first with
  | nil => exact hlater.of_mode (h.trans hmode)
  | cons step rest ih => exact ⟨h.1, ih h.2⟩

theorem exists_text_of_reachable {text : String} {token : Comment.Token}
    (h : token ∈ renderer.reachable (renderer.tokens text)) :
    ∃ text, token ∈ renderer.tokens text := by
  rcases List.mem_append.mp h with hdocument | hfile
  · exact ⟨text, hdocument⟩
  · obtain ⟨file, -, hmem⟩ := List.mem_flatMap.mp hfile
    exact ⟨_, hmem⟩

theorem walk_leads {document tokens : List Comment.Token} {state : RenderState}
    (reachable : ∀ token ∈ tokens, token ∈ renderer.reachable document) :
    Leads state (renderer.walk owner document state tokens reachable).1
      (renderer.walk owner document state tokens reachable).2 := by
  fun_induction Renderer.walk renderer owner document state tokens reachable with
  | case1 state => exact rfl
  | case2 state token rest _ _ output after h later last hlater _ ih =>
      rw [hlater] at ih
      exact ⟨rfl, ih⟩
  | case3 state token rest _ _ path text h inner after hinner later last hlater _ ihInner ihLater =>
      rw [hinner] at ihInner
      rw [hlater] at ihLater
      -- Files share the mode of what includes them, at both of their ends.
      have henter : state.mode = (state.enterFile (Path.components path)).mode := rfl
      have hleave : after.mode = (after.leaveFile state).mode := rfl
      exact (ihInner.of_mode henter).append hleave ihLater

theorem walk_sound {text : String} {tokens : List Comment.Token} {state : RenderState}
    (reachable : ∀ token ∈ tokens, token ∈ renderer.reachable (renderer.tokens text)) :
    ∀ step ∈ (renderer.walk owner (renderer.tokens text) state tokens reachable).1,
      step.Sound renderer owner := by
  fun_induction Renderer.walk renderer owner (renderer.tokens text) state tokens reachable with
  | case1 state => exact fun _ hmem => nomatch hmem
  | case2 state token rest hreachable _ output after h later last hlater _ ih =>
      rw [hlater] at ih
      intro step hmem
      cases hmem with
      | head => exact ⟨h, exists_text_of_reachable (hreachable token List.mem_cons_self)⟩
      | tail _ hmem => exact ih step hmem
  | case3 state token rest _ _ path text h inner after hinner later last hlater _ ihInner ihLater =>
      rw [hinner] at ihInner
      rw [hlater] at ihLater
      intro step hmem
      rcases List.mem_append.mp hmem with hmem | hmem
      · exact ihInner step hmem
      · exact ihLater step hmem

variable {state : RenderState} {text : String}

def steps (renderer : Renderer repo) (owner : Option repo.Ref) (state : RenderState)
    (text : String) : List Step :=
  (renderer.trace owner state text).1

def stateAfter (first : RenderState) (steps : List Step) : RenderState :=
  (steps.getLast?.map Step.after).getD first

theorem stateAfter_concat (first : RenderState) (done : List Step) (step : Step) :
    stateAfter first (done ++ [step]) = step.after := by
  simp [stateAfter]

theorem steps_leads (renderer : Renderer repo) (owner : Option repo.Ref) (state : RenderState)
    (text : String) :
    Leads state (renderer.steps owner state text) (renderer.inline owner state text).2 :=
  walk_leads _

theorem steps_sound {step : Step} (h : step ∈ renderer.steps owner state text) :
    step.Sound renderer owner :=
  walk_sound _ step h

theorem Leads.prefix {first last : RenderState} {done later : List Step}
    (h : Leads first (done ++ later) last) : Leads first done (stateAfter first done) := by
  induction done generalizing first with
  | nil => exact rfl
  | cons step rest ih =>
      refine ⟨h.1, ?_⟩
      have hrest := ih h.2
      cases rest with
      | nil => exact rfl
      | cons other rest => exact hrest

def outputOf (steps : List Step) : List Page.Chunk :=
  steps.flatMap fun step => step.output.chunks

theorem chunks_join (outputs : List Output) :
    (Output.join outputs).chunks = outputs.flatMap Output.chunks := by
  induction outputs with
  | nil => rfl
  | cons output rest ih => rw [Output.join, Output.chunks_append, ih, List.flatMap_cons]

theorem chunks_inline :
    (renderer.inline owner state text).1.chunks = outputOf (renderer.steps owner state text) := by
  show (Output.join ((renderer.steps owner state text).map Step.output)).chunks = _
  rw [chunks_join, List.flatMap_map]
  rfl

def documentStart (state : RenderState) : List Page.Chunk :=
  if state.inCode then [] else [.openTag "p" []]

def documentEnd (state last : RenderState) : List Page.Chunk :=
  (if state.inCode then []
    else (if last.inCode then [.closeTag "code", .openTag "p" []] else []) ++ [.closeTag "p"]) ++
    last.sectionEnds

theorem chunks_document :
    (renderer.document owner state text).1.chunks =
      documentStart state ++ outputOf (renderer.steps owner state text) ++
        documentEnd state (renderer.inline owner state text).2 := by
  rw [← chunks_inline]
  cases hcode : state.inCode with
  | true => simp [document, documentStart, documentEnd, hcode, Output.ofChunks]
  | false => simp [document, documentStart, documentEnd, hcode, Output.ofChunks]

theorem prefix_document {done later : List Step}
    (h : renderer.steps owner state text = done ++ later) :
    documentStart state ++ outputOf done <+: (renderer.document owner state text).1.chunks := by
  rw [chunks_document, h]
  exact ⟨outputOf later ++ documentEnd state (renderer.inline owner state text).2, by
    simp [outputOf]⟩

section

variable {σ : Type} {read : σ → Page.Tag → Option σ} {opened : RenderState → σ}

/-- If each step leads a reader of tags from what the state before it stands for to what the
state after it stands for, so do all steps together. -/
theorem Leads.reads {first last : RenderState} {steps : List Step}
    (h : Leads first steps last)
    (hmode : ∀ {state other : RenderState}, state.mode = other.mode → opened state = opened other)
    (hstep : ∀ step ∈ steps, (Page.tagsOf step.output.chunks).foldlM read (opened step.before) =
      some (opened step.after)) :
    (Page.tagsOf (outputOf steps)).foldlM read (opened first) = some (opened last) := by
  induction steps generalizing first with
  | nil => exact congrArg some (hmode h)
  | cons step rest ih =>
      have hrest := ih h.2 fun other hmem => hstep other (List.mem_cons_of_mem step hmem)
      rw [outputOf, List.flatMap_cons, hmode h.1]
      exact Page.foldlM_tagsOf_append (hstep step List.mem_cons_self) hrest

end

end Renderer

end DocMarkup
