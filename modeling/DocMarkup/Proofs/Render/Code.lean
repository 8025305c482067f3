import DocMarkup.Proofs.Render.Markup

/-!
The code elements of a document.

Fences open and close code elements without looking at the state, and literals and parameters
are code elements of their own wherever they stand. So code elements are balanced exactly if
each of these is met where it fits.
-/

namespace DocMarkup

namespace Page

/-- Whether a code element is open after a tag; none if the tag opens one in another or closes
one where none is open. -/
def readCode (inside : Bool) : Tag → Option Bool
  | .opening name => if name = "code" then if inside then none else some true else some inside
  | .closing name => if name = "code" then if inside then some false else none else some inside
  | .empty _ => some inside
  | .unfinished => some inside

def codeAfter (inside : Bool) (tags : List Tag) : Option Bool :=
  tags.foldlM readCode inside

/-- Code elements are closed after they are opened, none is opened in another, and none is left
open. -/
def CodeBalanced (tags : List Tag) : Prop :=
  codeAfter false tags = some false

instance (tags : List Tag) : Decidable (CodeBalanced tags) :=
  inferInstanceAs (Decidable (_ = _))

theorem codeAfter_inline {chunks : List Chunk} (h : Inline chunks) (inside : Bool) :
    codeAfter inside (tagsOf chunks) = some inside :=
  h.reads (fun inside => ⟨inside, rfl, rfl⟩) (fun _ => rfl) inside

theorem countsSections_readCode (inside : Bool) : CountsSections readCode fun _ => inside :=
  ⟨fun _ => rfl, fun _ => rfl⟩

end Page

namespace Renderer

open Page

variable {repo : Repository} {renderer : Renderer repo} {owner : Option repo.Ref}

/-- A construct fits if it opens a code element outside code only, and closes one in code
only. -/
def CodeRole.Fits (role : CodeRole) (inCode : Bool) : Prop :=
  match role with
  | .opens => inCode = false
  | .closes => inCode = true
  | .encloses => inCode = false
  | .none => True

instance (inCode : Bool) : (role : CodeRole) → Decidable (role.Fits inCode)
  | .opens => inferInstanceAs (Decidable (inCode = false))
  | .closes => inferInstanceAs (Decidable (inCode = true))
  | .encloses => inferInstanceAs (Decidable (inCode = false))
  | .none => inferInstanceAs (Decidable True)

def Step.FitsCode (renderer : Renderer repo) (owner : Option repo.Ref) (step : Step) : Prop :=
  (renderer.codeRole owner step.token.construct).Fits step.before.inCode

instance (renderer : Renderer repo) (owner : Option repo.Ref) (step : Step) :
    Decidable (step.FitsCode renderer owner) :=
  inferInstanceAs (Decidable (CodeRole.Fits _ _))

section

variable {before after : RenderState} {construct : Construct} {chunks : List Chunk}

theorem Effect.codeAfter_of_fits (h : Effect renderer owner before construct chunks after)
    (hfits : (renderer.codeRole owner construct).Fits before.inCode) :
    codeAfter before.inCode (tagsOf chunks) = some after.inCode := by
  cases h with
  | inline hrole hheading hinline => exact codeAfter_inline hinline _
  | @encloses _ inner hrole hinline =>
      rw [hrole] at hfits
      have hcode : before.inCode = false := hfits
      have hinner : codeAfter false (tagsOf (.openTag "code" [] :: inner)) = some true :=
        codeAfter_inline hinline true
      rw [hcode]
      exact foldlM_tagsOf_append hinner rfl
  | opens language hrole =>
      rw [hrole] at hfits
      have hcode : before.inCode = false := hfits
      rw [hcode]
      rfl
  | closes =>
      have hcode : before.inCode = true := hfits
      rw [hcode]
      rfl
  | paragraph hcode => rfl
  | note contents hcode => rfl
  | heading level title hcode =>
      have htags : codeAfter before.inCode
          (tagsOf (.closeTag "p" :: before.headingTags level)) = some before.inCode :=
        (countsSections_readCode before.inCode).headingTags before level
      exact foldlM_tagsOf_append htags rfl

theorem Effect.codeAfter_of_not_fits (h : Effect renderer owner before construct chunks after)
    (hfits : ¬ (renderer.codeRole owner construct).Fits before.inCode) :
    codeAfter before.inCode (tagsOf chunks) = none := by
  cases h with
  | inline hrole hheading hinline =>
      rw [hrole] at hfits
      exact absurd trivial hfits
  | @encloses _ inner hrole hinline =>
      rw [hrole] at hfits
      have hcode : before.inCode = true := eq_true_of_ne_false hfits
      rw [hcode]
      rfl
  | opens language hrole =>
      rw [hrole] at hfits
      have hcode : before.inCode = true := eq_true_of_ne_false hfits
      rw [hcode]
      rfl
  | closes =>
      have hcode : before.inCode = false := eq_false_of_ne_true hfits
      rw [hcode]
      rfl
  | paragraph hcode => exact absurd trivial hfits
  | note contents hcode => exact absurd trivial hfits
  | heading level title hcode => exact absurd trivial hfits

end

theorem codeAfter_outputOf_of_fits {first last : RenderState} {steps : List Step}
    (hleads : Leads first steps last) (hsound : ∀ step ∈ steps, step.Sound renderer owner)
    (hfits : ∀ step ∈ steps, step.FitsCode renderer owner) :
    codeAfter first.inCode (tagsOf (outputOf steps)) = some last.inCode :=
  hleads.reads (fun hmode => congrArg Prod.fst hmode) fun step hmem =>
    (effect_of_finished (hsound step hmem).rendered).codeAfter_of_fits (hfits step hmem)

/-- The first step that does not fit ends all reading. -/
theorem codeAfter_outputOf_of_not_fits {first last : RenderState} {steps : List Step}
    (hleads : Leads first steps last) (hsound : ∀ step ∈ steps, step.Sound renderer owner)
    (hfits : ∃ step ∈ steps, ¬ step.FitsCode renderer owner) :
    codeAfter first.inCode (tagsOf (outputOf steps)) = none := by
  induction steps generalizing first with
  | nil =>
      obtain ⟨step, hmem, -⟩ := hfits
      cases hmem
  | cons step rest ih =>
      have heffect := effect_of_finished (hsound step List.mem_cons_self).rendered
      have hmode : first.inCode = step.before.inCode := congrArg Prod.fst hleads.1
      rw [outputOf, List.flatMap_cons, hmode]
      by_cases hstep : step.FitsCode renderer owner
      · have hlater : ∃ other ∈ rest, ¬ other.FitsCode renderer owner := by
          obtain ⟨other, hmem, hother⟩ := hfits
          rcases List.mem_cons.mp hmem with rfl | hmem
          · exact absurd hstep hother
          · exact ⟨other, hmem, hother⟩
        have hrest := ih hleads.2
          (fun other hmem => hsound other (List.mem_cons_of_mem step hmem)) hlater
        exact foldlM_tagsOf_append (heffect.codeAfter_of_fits hstep) hrest
      · exact foldlM_tagsOf_append_none _ (heffect.codeAfter_of_not_fits hstep)

theorem codeAfter_documentEnd (last : RenderState) :
    codeAfter last.inCode (tagsOf (documentEnd {} last)) = some false := by
  have hcode : codeAfter last.inCode
      (tagsOf ((if last.inCode then [.closeTag "code", .openTag "p" []] else []) ++
        [.closeTag "p"])) = some false := by
    cases last.inCode with
    | true => rfl
    | false => rfl
  exact foldlM_tagsOf_append hcode ((countsSections_readCode false).sectionEnds last)

theorem codeBalanced_chunks_iff (renderer : Renderer repo) (owner : Option repo.Ref)
    (text : String) :
    CodeBalanced (tagsOf (renderer.comment owner (some text)).chunks) ↔
      ∀ step ∈ renderer.steps owner {} text, step.FitsCode renderer owner := by
  have hleads := renderer.steps_leads owner {} text
  have hsound : ∀ step ∈ renderer.steps owner {} text, step.Sound renderer owner :=
    fun _ hmem => steps_sound hmem
  have hstart : codeAfter false (tagsOf (documentStart {})) = some false := rfl
  show codeAfter false (tagsOf (renderer.document owner {} text).1.chunks) = some false ↔ _
  rw [chunks_document]
  constructor
  · intro hbalanced step hmem
    apply Classical.byContradiction
    intro hfits
    have hnone := codeAfter_outputOf_of_not_fits hleads hsound ⟨step, hmem, hfits⟩
    have hall := foldlM_tagsOf_append_none (documentEnd {} (renderer.inline owner {} text).2)
      (foldlM_tagsOf_append hstart hnone)
    cases hbalanced.symm.trans hall
  · intro hfits
    have hsteps := codeAfter_outputOf_of_fits hleads hsound hfits
    exact foldlM_tagsOf_append (foldlM_tagsOf_append hstart hsteps) (codeAfter_documentEnd _)

/-- The code elements of a document are balanced exactly if none of its constructs opens a code
element in code, and none closes one outside code. The same holds of its text, unless names of
the repository are markup themselves. -/
theorem codeBalanced_comment_iff (renderer : Renderer repo) (owner : Option repo.Ref)
    (text : String) :
    (CodeBalanced (tagsOf (renderer.comment owner (some text)).chunks) ↔
      ∀ step ∈ renderer.steps owner {} text, step.FitsCode renderer owner) ∧
    (Comment.IsGrammar renderer.grammar → repo.Unmarked →
      (CodeBalanced (tagsIn (renderer.comment owner (some text)).markup) ↔
        ∀ step ∈ renderer.steps owner {} text, step.FitsCode renderer owner)) := by
  refine ⟨codeBalanced_chunks_iff renderer owner text, ?_⟩
  intro hgrammar hrepo
  rw [tagsIn_comment hrepo hgrammar]
  exact codeBalanced_chunks_iff renderer owner text

theorem codeBalanced_comment_bare :
    (∀ step ∈ bare.steps none {} "|[x]|", step.FitsCode bare none) ∧
      CodeBalanced (tagsIn (bare.comment none (some "|[x]|")).markup) := by
  have hfits : ∀ step ∈ bare.steps none {} "|[x]|", step.FitsCode bare none := by
    decide +kernel
  have htext := (codeBalanced_comment_iff bare none "|[x]|").2 isGrammar_bare unmarked_bare
  exact ⟨hfits, htext.mpr hfits⟩

/-- A fence that closes code where none is open is written as a closing tag all the same. -/
theorem not_codeBalanced_stray_fence :
    ¬ CodeBalanced (tagsIn (bare.comment none (some "]|")).markup) := by
  decide +kernel

end Renderer

end DocMarkup
