import DocMarkup.Proofs.Render.Markup

/-!
The elements of a document are nested.

Between constructs the open elements are the sections of the state and in them a paragraph, or
a code element in code. What a construct writes is right for these elements only, so each one
has to find them as the one before it leaves them.
-/

namespace DocMarkup

namespace Page

/-- The names of the elements that are open after a tag, innermost first; none if the tag
closes another element than the innermost, or does not end. -/
def readElement (opened : List String) : Tag → Option (List String)
  | .opening name => some (name :: opened)
  | .closing name =>
      match opened with
      | [] => none
      | innermost :: outer => if innermost = name then some outer else none
  | .empty _ => some opened
  | .unfinished => none

def openAfter (opened : List String) (tags : List Tag) : Option (List String) :=
  tags.foldlM readElement opened

/-- Each closing tag closes the innermost open element, and none is open at the end. -/
def Nested (markup : String) : Prop :=
  openAfter [] (tagsIn markup) = some []

@[simp] theorem readElement_closing (name : String) (outer : List String) :
    readElement (name :: outer) (.closing name) = some outer :=
  if_pos rfl

theorem openAfter_inline {chunks : List Chunk} (h : Inline chunks) (opened : List String) :
    openAfter opened (tagsOf chunks) = some opened :=
  h.reads (fun opened => ⟨"link" :: opened, rfl, readElement_closing "link" opened⟩)
    (fun _ => rfl) opened

theorem countsSections_readElement :
    CountsSections readElement fun depth => List.replicate depth "section" :=
  ⟨fun _ => rfl, fun depth => readElement_closing "section" (List.replicate depth "section")⟩

end Page

namespace RenderState

open Page

/-- The elements that are open between constructs, innermost first. -/
def openElements (state : RenderState) : List String :=
  (if state.inCode then "code" else "p") :: List.replicate state.openSections "section"

theorem openElements_of_code {state : RenderState} (h : state.inCode = true) :
    state.openElements = "code" :: List.replicate state.openSections "section" := by
  rw [openElements, if_pos h]

theorem openElements_of_text {state : RenderState} (h : state.inCode = false) :
    state.openElements = "p" :: List.replicate state.openSections "section" := by
  rw [openElements, h]
  rfl

theorem openElements_congr {state other : RenderState} (h : state.mode = other.mode) :
    state.openElements = other.openElements := by
  obtain ⟨hcode, hsections⟩ := Prod.mk.inj h
  rw [openElements, openElements, hcode, hsections]

end RenderState

/-- A fence fits if it opens code outside code, or closes it in code. -/
def Construct.FenceFits (inCode : Bool) : Construct → Prop
  | .codeStart => inCode = false
  | .codeStartWithLanguage _ => inCode = false
  | .codeEnd => inCode = true
  | _ => True

instance (inCode : Bool) : (construct : Construct) → Decidable (construct.FenceFits inCode)
  | .codeStart => inferInstanceAs (Decidable (inCode = false))
  | .codeStartWithLanguage _ => inferInstanceAs (Decidable (inCode = false))
  | .codeEnd => inferInstanceAs (Decidable (inCode = true))
  | .other | .note _ | .newParagraph | .newLine | .property _ _ | .signal _ _ | .typeName _
  | .enumValue _ | .parameter _ | .functionCall _ | .inclusion _ | .heading _ _ =>
      inferInstanceAs (Decidable True)

namespace Renderer

open Page

variable {repo : Repository} {renderer : Renderer repo} {owner : Option repo.Ref}

section

variable {before after : RenderState} {construct : Construct} {chunks : List Chunk}

theorem inCode_of_opens (hrole : renderer.codeRole owner construct = .opens)
    (hfits : construct.FenceFits before.inCode) : before.inCode = false := by
  unfold codeRole at hrole
  split at hrole
  · exact hfits
  · exact hfits
  · cases hrole
  · split at hrole <;> cases hrole
  · split at hrole <;> cases hrole
  · cases hrole

theorem Effect.openAfter (h : Effect renderer owner before construct chunks after)
    (hfits : construct.FenceFits before.inCode) :
    openAfter before.openElements (tagsOf chunks) = some after.openElements := by
  cases h with
  | inline hrole hheading hinline => exact openAfter_inline hinline _
  | @encloses _ inner hrole hinline =>
      have hinner : Page.openAfter before.openElements
          (tagsOf (.openTag "code" [] :: inner)) = some ("code" :: before.openElements) :=
        openAfter_inline hinline _
      exact foldlM_tagsOf_append hinner rfl
  | opens language hrole =>
      rw [RenderState.openElements_of_text (inCode_of_opens hrole hfits)]
      rfl
  | closes =>
      have hcode : before.inCode = true := hfits
      rw [RenderState.openElements_of_code hcode]
      rfl
  | paragraph hcode =>
      rw [RenderState.openElements_of_text hcode]
      rfl
  | note contents hcode =>
      rw [RenderState.openElements_of_text hcode]
      rfl
  | heading level title hcode =>
      have hafter : (before.atHeading level).inCode = false := hcode
      have htags : Page.openAfter before.openElements
          (tagsOf (.closeTag "p" :: before.headingTags level)) =
            some (List.replicate (max level 1) "section") := by
        rw [RenderState.openElements_of_text hcode]
        exact countsSections_readElement.headingTags before level
      rw [RenderState.openElements_of_text hafter]
      exact foldlM_tagsOf_append htags rfl

end

theorem openAfter_outputOf {first last : RenderState} {steps : List Step}
    (hleads : Leads first steps last) (hsound : ∀ step ∈ steps, step.Sound renderer owner)
    (hfits : ∀ step ∈ steps, step.token.construct.FenceFits step.before.inCode) :
    Page.openAfter first.openElements (tagsOf (outputOf steps)) = some last.openElements :=
  hleads.reads RenderState.openElements_congr fun step hmem =>
    (effect_of_finished (hsound step hmem).rendered).openAfter (hfits step hmem)

theorem openAfter_documentEnd (last : RenderState) :
    Page.openAfter last.openElements (tagsOf (documentEnd {} last)) = some [] := by
  have hcode : Page.openAfter last.openElements
      (tagsOf ((if last.inCode then [.closeTag "code", .openTag "p" []] else []) ++
        [.closeTag "p"])) = some (List.replicate last.openSections "section") := by
    cases hinCode : last.inCode with
    | true =>
        rw [RenderState.openElements_of_code hinCode]
        rfl
    | false =>
        rw [RenderState.openElements_of_text hinCode]
        rfl
  exact foldlM_tagsOf_append hcode (countsSections_readElement.sectionEnds last)

/-- A comment in which all fences fit is nested. Between its constructs the open elements are
the sections of the state and in them a paragraph, or a code element in code. -/
theorem comment_nested (hgrammar : Comment.IsGrammar renderer.grammar)
    (hrepo : repo.Unmarked) (owner : Option repo.Ref) (text : String)
    (hfits : ∀ step ∈ renderer.steps owner {} text,
      step.token.construct.FenceFits step.before.inCode) :
    Nested (renderer.comment owner (some text)).markup ∧
      ∀ done later, renderer.steps owner {} text = done ++ later →
        ∃ rest, (renderer.comment owner (some text)).markup =
            write (documentStart {} ++ outputOf done) ++ rest ∧
          Page.openAfter [] (tagsIn (write (documentStart {} ++ outputOf done))) =
            some (stateAfter {} done).openElements := by
  have hleads := renderer.steps_leads owner {} text
  have hsound : ∀ step ∈ renderer.steps owner {} text, step.Sound renderer owner :=
    fun _ hmem => steps_sound hmem
  have hstart : Page.openAfter [] (tagsOf (documentStart {})) =
      some (RenderState.openElements {}) := rfl
  constructor
  · have hsteps := openAfter_outputOf hleads hsound hfits
    rw [Nested, tagsIn_comment hrepo hgrammar]
    show Page.openAfter [] (tagsOf (renderer.document owner {} text).1.chunks) = some []
    rw [chunks_document]
    exact foldlM_tagsOf_append (foldlM_tagsOf_append hstart hsteps) (openAfter_documentEnd _)
  · intro done later hdone
    obtain ⟨rest, hrest⟩ := prefix_document hdone
    have hmem : ∀ step ∈ done, step ∈ renderer.steps owner {} text := by
      intro step hstep
      rw [hdone]
      exact List.mem_append_left later hstep
    rw [hdone] at hleads
    have hread := openAfter_outputOf hleads.prefix (fun step hstep => hsound step (hmem step hstep))
      fun step hstep => hfits step (hmem step hstep)
    have hclean : CleanAll (documentStart {} ++ outputOf done) :=
      (clean_documentStart {}).append
        (clean_outputOf hrepo hgrammar fun step hstep => hsound step (hmem step hstep))
    refine ⟨write rest, ?_, ?_⟩
    · show write (renderer.document owner {} text).1.chunks = _
      rw [← hrest, write_append]
    · rw [tagsIn_write hclean]
      exact foldlM_tagsOf_append hstart hread

theorem comment_nested_bare :
    (∀ step ∈ bare.steps none {} "|[x]|", step.token.construct.FenceFits step.before.inCode) ∧
      Nested (bare.comment none (some "|[x]|")).markup := by
  have hfits : ∀ step ∈ bare.steps none {} "|[x]|",
      step.token.construct.FenceFits step.before.inCode := by
    decide +kernel
  exact ⟨hfits, (comment_nested isGrammar_bare unmarked_bare none "|[x]|" hfits).1⟩

end Renderer

end DocMarkup
