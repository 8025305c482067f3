import DocMarkup.Proofs.Comment.Tokens
import DocMarkup.Proofs.Render.Effect

/-!
The sections of a document.

Tags are read from left to right with the number of sections that are open. Between constructs
that number is the one of the state, so a heading finds as many as it counts on.
-/

namespace DocMarkup

namespace Page

/-- How many sections are open after a tag; none if it closes one where none is open. -/
def readSection (depth : Nat) : Tag → Option Nat
  | .opening name => some (if name = "section" then depth + 1 else depth)
  | .closing name =>
      if name = "section" then if depth = 0 then none else some (depth - 1) else some depth
  | .empty _ => some depth
  | .unfinished => some depth

def sectionDepth (depth : Nat) (tags : List Tag) : Option Nat :=
  tags.foldlM readSection depth

theorem sectionDepth_inline {chunks : List Chunk} (h : Inline chunks) (depth : Nat) :
    sectionDepth depth (tagsOf chunks) = some depth :=
  h.reads (fun depth => ⟨depth, rfl, rfl⟩) (fun _ => rfl) depth

theorem countsSections_readSection : CountsSections readSection id :=
  ⟨fun _ => rfl, fun _ => rfl⟩

end Page

namespace Renderer

open Page

variable {repo : Repository} {renderer : Renderer repo} {owner : Option repo.Ref}

section

variable {before after : RenderState} {construct : Construct} {chunks : List Chunk}

theorem Effect.sectionDepth (h : Effect renderer owner before construct chunks after) :
    sectionDepth before.openSections (tagsOf chunks) = some after.openSections := by
  cases h with
  | inline hrole hheading hinline => exact sectionDepth_inline hinline _
  | @encloses _ inner hrole hinline =>
      have hinner : Page.sectionDepth before.openSections
          (tagsOf (.openTag "code" [] :: inner)) = some before.openSections :=
        sectionDepth_inline hinline _
      exact foldlM_tagsOf_append hinner rfl
  | opens language hrole => rfl
  | closes => rfl
  | paragraph hcode => rfl
  | note contents hcode => rfl
  | heading level title hcode =>
      have htags : Page.sectionDepth before.openSections
          (tagsOf (.closeTag "p" :: before.headingTags level)) = some (max level 1) :=
        countsSections_readSection.headingTags before level
      exact foldlM_tagsOf_append htags rfl

theorem opening_mem_headingTags (state : RenderState) (level : Nat) :
    Tag.opening "section" ∈ tagsOf (state.headingTags level) := by
  have hpos : max level 1 - min state.openSections (level - 1) ≠ 0 := by omega
  obtain ⟨count, hcount⟩ := Nat.exists_eq_succ_of_ne_zero hpos
  rw [RenderState.headingTags, tagsOf_append, hcount, List.replicate_succ]
  exact List.mem_append_right _ List.mem_cons_self

theorem Effect.heading_outside {level : Nat} {title : String} (hcode : before.inCode = false)
    (h : Effect renderer owner before (.heading level title) chunks after) :
    after.openSections = max level 1 ∧ Tag.opening "section" ∈ tagsOf chunks := by
  cases h with
  | inline hrole hheading hinline => cases hheading hcode
  | encloses hrole hinline => cases hrole
  | opens language hrole => cases hrole
  | heading =>
      have htags := opening_mem_headingTags before level
      simp only [List.cons_append, tagsOf, List.flatMap_cons, List.flatMap_append] at htags ⊢
      exact ⟨rfl, List.mem_append_right _ (List.mem_append_left _ htags)⟩

theorem Effect.heading_inside {level : Nat} {title : String} (hcode : before.inCode = true)
    (h : Effect renderer owner before (.heading level title) chunks after) :
    ∀ tag ∈ tagsOf chunks, tag.isOf "section" = false := by
  cases h with
  | inline hrole hheading hinline => exact hinline.isOf_eq_false (by decide)
  | encloses hrole hinline => cases hrole
  | opens language hrole => cases hrole
  | heading _ _ hout =>
      rw [hcode] at hout
      contradiction

end

theorem sectionDepth_outputOf {first last : RenderState} {steps : List Step}
    (hleads : Leads first steps last) (hsound : ∀ step ∈ steps, step.Sound renderer owner) :
    Page.sectionDepth first.openSections (tagsOf (outputOf steps)) = some last.openSections :=
  hleads.reads (fun hmode => congrArg Prod.snd hmode) fun step hmem =>
    (effect_of_finished (hsound step hmem).rendered).sectionDepth

theorem sectionDepth_documentStart (state : RenderState) :
    Page.sectionDepth state.openSections (tagsOf (documentStart state)) =
      some state.openSections := by
  unfold documentStart
  split <;> rfl

theorem sectionDepth_documentEnd (state last : RenderState) :
    Page.sectionDepth last.openSections (tagsOf (documentEnd state last)) = some 0 := by
  have hcode : Page.sectionDepth last.openSections
      (tagsOf (if state.inCode then []
        else (if last.inCode then [.closeTag "code", .openTag "p" []] else []) ++
          [.closeTag "p"])) = some last.openSections := by
    split
    · rfl
    · split <;> rfl
  exact foldlM_tagsOf_append hcode (countsSections_readSection.sectionEnds last)

/-- The sections of a document, whatever state it starts in. As many sections as are open
before it are closed by its end, and none that is not open is closed. After the tags of a
heading outside code as many sections are open as its level says, at least one of them opened
by it; in code a heading neither opens nor closes any. -/
theorem document_sections (hgrammar : Comment.IsGrammar renderer.grammar)
    (owner : Option repo.Ref) (state : RenderState) (text : String) :
    Page.sectionDepth state.openSections (tagsOf (renderer.document owner state text).1.chunks) =
        some 0 ∧
      ∀ done step later, renderer.steps owner state text = done ++ step :: later →
        ∀ level title, step.token.construct = .heading level title →
          (step.before.inCode = false →
            documentStart state ++ outputOf (done ++ [step]) <+:
              (renderer.document owner state text).1.chunks ∧
            Page.sectionDepth state.openSections
              (tagsOf (documentStart state ++ outputOf (done ++ [step]))) = some level ∧
            Tag.opening "section" ∈ tagsOf step.output.chunks) ∧
          (step.before.inCode = true →
            ∀ tag ∈ tagsOf step.output.chunks, tag.isOf "section" = false) := by
  have hleads := renderer.steps_leads owner state text
  have hstart := sectionDepth_documentStart state
  constructor
  · have hsteps := sectionDepth_outputOf hleads fun _ hmem => steps_sound hmem
    rw [chunks_document]
    exact foldlM_tagsOf_append (foldlM_tagsOf_append hstart hsteps)
      (sectionDepth_documentEnd state _)
  · intro done step later hsteps level title hheading
    have hmem : ∀ other ∈ done ++ [step], other ∈ renderer.steps owner state text := by
      intro other hother
      rw [hsteps, List.append_cons]
      exact List.mem_append_left _ hother
    have hsound := fun other hother => steps_sound (hmem other hother)
    have hstep := hsound step (by simp)
    obtain ⟨source, hscanned⟩ := hstep.scanned
    have hlevel := Comment.one_le_level hgrammar hscanned hheading
    have heffect := effect_of_finished hstep.rendered
    rw [hheading] at heffect
    constructor
    · intro hcode
      obtain ⟨hafter, hopening⟩ := heffect.heading_outside hcode
      rw [hsteps, List.append_cons] at hleads
      have hdone := sectionDepth_outputOf hleads.prefix hsound
      rw [stateAfter_concat, hafter, Nat.max_eq_left hlevel] at hdone
      exact ⟨prefix_document (hsteps.trans (List.append_cons done step later)),
        foldlM_tagsOf_append hstart hdone, hopening⟩
    · exact fun hcode => heffect.heading_inside hcode

theorem steps_bare_heading :
    (bare.steps none { openSections := 2 } "# A").map
        (fun step => (step.token.construct, step.before.inCode)) =
      [(.heading 1 "A", false)] := by
  decide +kernel

theorem document_sections_bare :
    Page.sectionDepth 2 (tagsOf (bare.document none { openSections := 2 } "# A").1.chunks) =
        some 0 ∧
      ∃ step, bare.steps none { openSections := 2 } "# A" = [step] ∧
        Page.sectionDepth 2
          (tagsOf (documentStart { openSections := 2 } ++ outputOf [step])) = some 1 := by
  obtain ⟨hdepth, hheadings⟩ := document_sections isGrammar_bare none { openSections := 2 } "# A"
  obtain ⟨step, hsteps, hstep⟩ := List.map_eq_singleton_iff.mp steps_bare_heading
  obtain ⟨hconstruct, hcode⟩ := Prod.mk.inj hstep
  obtain ⟨-, hlevel, -⟩ := (hheadings [] step [] hsteps 1 "A" hconstruct).1 hcode
  exact ⟨hdepth, step, hsteps, hlevel⟩

end Renderer

end DocMarkup
