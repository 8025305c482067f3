import DocMarkup.Proofs.Comment.Tokens
import DocMarkup.Proofs.Link.Unmarked
import DocMarkup.Proofs.Render.Effect
import DocMarkup.Proofs.Text.Fragments

/-!
The markup of documents as text.

If no name of the repository starts a tag, the tags that are read off the text of a document
are the ones that were written into it.
-/

namespace DocMarkup

open Page

theorem Text.Fragment.unmarked_of_mem_split {text : String} (h : Text.Unmarked text)
    {fragment : Text.Fragment × String} (hmem : fragment ∈ split text) :
    Text.Unmarked fragment.2 := by
  intro hless
  apply h
  rw [← flatMap_split text]
  exact List.mem_flatMap.mpr ⟨fragment, hmem, hless⟩

theorem Repository.Ref.name_of_child? {repo : Repository} {owner ref : repo.Ref} {name : String}
    {test : Entity → Bool} (h : owner.child? name test = some ref) : ref.entity.name = name := by
  obtain ⟨id, hid, rfl⟩ := Option.map_eq_some_iff.mp h
  have hfound := List.find?_some hid
  rw [Bool.and_eq_true, beq_iff_eq] at hfound
  exact hfound.1

theorem Language.unmarked_literal? {language : Language} {member literal : String}
    (h : language.literal? member = some literal) : Text.Unmarked literal := by
  unfold Language.literal? at h
  split at h <;> cases h <;> decide

namespace Renderer

variable {repo : Repository} {renderer : Renderer repo} {owner : Option repo.Ref}

theorem clean_ofText (text : String) : CleanAll (Output.ofText text).chunks :=
  .cons (Text.Unmarked.escape text) .nil

theorem clean_inCodeTags {content : Output} (hcontent : CleanAll content.chunks) :
    CleanAll (inCodeTags content).chunks :=
  have hopen : CleanAll [.openTag "code" []] := by decide
  have hclose : CleanAll [.closeTag "code"] := by decide
  (hopen.append hcontent).append hclose

section

variable (h : repo.Unmarked)

include h

theorem clean_link (ref : Option repo.Ref) {text : Option String} (plural : Bool)
    (htext : ∀ shown, text = some shown → Text.Unmarked shown) :
    CleanAll (renderer.link ref text plural).chunks :=
  LinkStyle.clean_rendered h ref htext

theorem clean_word {fragment : Text.Fragment × String} (hpiece : Text.Unmarked fragment.2) :
    CleanAll (renderer.word fragment).chunks := by
  obtain ⟨fragment, piece⟩ := fragment
  cases fragment with
  | word =>
      simp only [word]
      cases repo.entityOfWord? piece with
      | some ref => exact clean_link h _ _ fun _ hshown => Option.some.inj hshown ▸ hpiece
      | none => exact .cons hpiece .nil
  | _ => exact .cons hpiece .nil

theorem clean_plainText (text : String) : CleanAll (renderer.plainText text).chunks := by
  unfold plainText
  split
  · rw [chunks_join, List.flatMap_map]
    exact .flatMap fun fragment hmem =>
      clean_word h (Text.Fragment.unmarked_of_mem_split (.escape text) hmem)
  · exact clean_ofText text

theorem clean_propertyLink? {typeName propertyName : String} {found : Output}
    (hfound : renderer.propertyLink? typeName propertyName = some found) :
    CleanAll found.chunks := by
  obtain ⟨ref, -, hfound⟩ := Option.bind_eq_some_iff.mp hfound
  obtain ⟨property, hproperty, hfound⟩ := Option.bind_eq_some_iff.mp hfound
  cases hfound
  apply clean_link h
  intro shown hshown
  rw [← Option.some.inj hshown, ← Repository.Ref.name_of_child? hproperty]
  exact (h.entity property).name

theorem clean_signalLink? {typeName signalName : String} {found : Output}
    (hfound : renderer.signalLink? typeName signalName = some found) :
    CleanAll found.chunks := by
  obtain ⟨ref, -, hfound⟩ := Option.bind_eq_some_iff.mp hfound
  obtain ⟨signal, -, hfound⟩ := Option.bind_eq_some_iff.mp hfound
  cases hfound
  exact clean_link h _ _ fun _ hshown => nomatch hshown

theorem clean_typeLink? {typeName : String} {found : Output}
    (hfound : renderer.typeLink? typeName = some found) : CleanAll found.chunks := by
  unfold typeLink? at hfound
  split at hfound
  · cases hfound
    exact clean_link h _ _ fun _ hshown => nomatch hshown
  · obtain ⟨singular, -, hfound⟩ := Option.bind_eq_some_iff.mp hfound
    obtain ⟨ref, -, hfound⟩ := Option.bind_eq_some_iff.mp hfound
    cases hfound
    exact clean_link h _ _ fun _ hshown => nomatch hshown

theorem clean_enumValue? {member : String} {found : Output}
    (hfound : renderer.enumValue? member = some found) : CleanAll found.chunks := by
  unfold enumValue? at hfound
  split at hfound
  · next literal hliteral =>
      cases hfound
      exact clean_inCodeTags (.cons (Language.unmarked_literal? hliteral) .nil)
  · obtain ⟨ref, -, rfl⟩ := Option.map_eq_some_iff.mp hfound
    exact clean_link h _ _ fun _ hshown => nomatch hshown

theorem clean_callLink? {symbol call : String} {found : Output} (hcall : Text.Unmarked call)
    (hfound : renderer.callLink? symbol call = some found) : CleanAll found.chunks := by
  obtain ⟨ref, -, rfl⟩ := Option.map_eq_some_iff.mp hfound
  exact clean_link h _ _ fun _ hshown => Option.some.inj hshown ▸ hcall

end

theorem clean_parameter? {name : String} {found : Output}
    (hfound : renderer.parameter? owner name = some found) : CleanAll found.chunks := by
  obtain ⟨ref, -, hfound⟩ := Option.bind_eq_some_iff.mp hfound
  obtain ⟨callable, -, hfound⟩ := Option.bind_eq_some_iff.mp hfound
  obtain ⟨parameter, -, hfound⟩ := Option.bind_eq_some_iff.mp hfound
  cases hfound
  exact clean_inCodeTags (clean_ofText _)

section

variable {before after : RenderState} {token : Comment.Token} {output : Output}

theorem clean_reference {text : String} {link : Option Output}
    (hlink : ∀ found, link = some found → CleanAll found.chunks)
    (h : Rendering.reference before text link = .finished output after) :
    CleanAll output.chunks := by
  cases h
  cases link with
  | none => exact clean_ofText text
  | some found => exact hlink found rfl

theorem clean_codeTags (language : Option String) : CleanAll (codeTags language) := by
  have hkeys : PlainKeys ((language.bind Language.mediaTypeOfTag?).toList.map (("mime", ·))) := by
    intro pair hmem
    obtain ⟨mediaType, -, rfl⟩ := List.mem_map.mp hmem
    exact (by decide : PlainName "mime")
  exact .cons (by decide : PlainName "p") (.cons ⟨by decide, hkeys⟩ .nil)

theorem clean_noteTags (contents : String) : CleanAll (noteTags contents) := by
  have hstart : CleanAll [.closeTag "p", .openTag "note" [], .openTag "p" []] := by decide
  have hend : CleanAll [.closeTag "p", .closeTag "note", .openTag "p" []] := by decide
  exact (hstart.append (clean_ofText contents)).append hend

theorem clean_titleTags (title : String) : CleanAll (titleTags title) := by
  have hstart : CleanAll [.openTag "title" []] := by decide
  have hend : CleanAll [.closeTag "title", .openTag "p" []] := by decide
  exact (hstart.append (clean_ofText title)).append hend

theorem clean_headingTags (state : RenderState) (level : Nat) :
    CleanAll (state.headingTags level) :=
  (CleanAll.replicate _ (by decide)).append (.replicate _ (by decide))

theorem clean_renderInclusion (h : repo.Unmarked) {name text : String}
    (hrendered : renderer.renderInclusion before name text = .finished output after) :
    CleanAll output.chunks := by
  unfold renderInclusion at hrendered
  split at hrendered
  · cases hrendered
    exact clean_ofText text
  · split at hrendered
    · cases hrendered
      exact clean_ofText text
    · split at hrendered
      · cases hrendered
        exact clean_plainText h _
      · cases hrendered

theorem clean_of_finished (h : repo.Unmarked)
    (hcall : ∀ symbol, token.construct = .functionCall symbol → Text.Unmarked token.text)
    (hrendered : renderer.renderToken owner before token = .finished output after) :
    CleanAll output.chunks := by
  obtain ⟨construct, text⟩ := token
  cases construct with
  | other =>
      cases hrendered
      exact clean_plainText h text
  | newLine =>
      cases hrendered
      decide
  | newParagraph =>
      simp only [renderToken] at hrendered
      split at hrendered
      · cases hrendered
        decide
      · cases hrendered
        decide
  | codeStart =>
      cases hrendered
      exact clean_codeTags none
  | codeStartWithLanguage language =>
      cases hrendered
      exact clean_codeTags (some language)
  | codeEnd =>
      cases hrendered
      decide
  | note contents =>
      simp only [renderToken] at hrendered
      split at hrendered
      · exact clean_reference (fun _ hlink => by cases hlink) hrendered
      · cases hrendered
        exact clean_noteTags contents
  | heading level title =>
      simp only [renderToken] at hrendered
      split at hrendered
      · exact clean_reference (fun _ hlink => by cases hlink) hrendered
      · cases hrendered
        have hstart : CleanAll [.closeTag "p"] := by decide
        exact (hstart.append (clean_headingTags before level)).append (clean_titleTags title)
  | property typeName propertyName =>
      exact clean_reference (fun _ => clean_propertyLink? h) hrendered
  | signal typeName signalName =>
      exact clean_reference (fun _ => clean_signalLink? h) hrendered
  | typeName typeName => exact clean_reference (fun _ => clean_typeLink? h) hrendered
  | enumValue member => exact clean_reference (fun _ => clean_enumValue? h) hrendered
  | parameter name => exact clean_reference (fun _ => clean_parameter?) hrendered
  | functionCall symbol =>
      exact clean_reference (fun _ => clean_callLink? h (hcall symbol rfl)) hrendered
  | inclusion name => exact clean_renderInclusion h hrendered

end

variable {state last : RenderState} {text : String}

theorem clean_documentStart (state : RenderState) : CleanAll (documentStart state) := by
  unfold documentStart
  split
  · exact .nil
  · decide

theorem clean_documentEnd (state last : RenderState) : CleanAll (documentEnd state last) := by
  refine CleanAll.append ?_ (.replicate _ (by decide))
  split
  · exact .nil
  · split <;> decide

theorem clean_outputOf (h : repo.Unmarked) (hgrammar : Comment.IsGrammar renderer.grammar)
    {steps : List Step} (hsound : ∀ step ∈ steps, step.Sound renderer owner) :
    CleanAll (outputOf steps) := by
  apply CleanAll.flatMap
  intro step hmem
  obtain ⟨hrendered, source, hscanned⟩ := hsound step hmem
  exact clean_of_finished h (fun symbol => Comment.less_not_mem_call hgrammar hscanned) hrendered

theorem clean_document (h : repo.Unmarked) (hgrammar : Comment.IsGrammar renderer.grammar) :
    CleanAll (renderer.document owner state text).1.chunks := by
  rw [chunks_document]
  exact ((clean_documentStart state).append
    (clean_outputOf h hgrammar fun _ hmem => steps_sound hmem)).append (clean_documentEnd _ _)

/-- The tags that are read off a comment are the ones that rendering gives. -/
theorem tagsIn_comment (h : repo.Unmarked) (hgrammar : Comment.IsGrammar renderer.grammar) :
    tagsIn (renderer.comment owner (some text)).markup =
      tagsOf (renderer.comment owner (some text)).chunks :=
  tagsIn_write (clean_document h hgrammar)

theorem unmarked_bare : Repository.bare.Unmarked where
  spaces := by
    intro space hmem
    cases List.mem_singleton.mp hmem
    decide
  entities := by
    intro space hmem entity hentity
    cases List.mem_singleton.mp hmem
    have hnone : entity ∈ (#[] : Array Entity) := hentity
    exact absurd hnone (Array.not_mem_empty entity)

end Renderer

end DocMarkup
