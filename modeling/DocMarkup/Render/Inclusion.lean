import DocMarkup.Render.Construct

/-!
What rendering can meet.

All text that is rendered comes from the document or from a file, so only finitely many files
can be included, whatever names the constructs give them.
-/

namespace DocMarkup

namespace Renderer

variable {repo : Repository}

def fileTokens (renderer : Renderer repo) : List Comment.Token :=
  renderer.files.files.flatMap fun (_, bytes) =>
    renderer.tokens (Text.Utf8.decodeLossy bytes)

/-- The constructs of a document and of all files. -/
def reachable (renderer : Renderer repo) (document : List Comment.Token) : List Comment.Token :=
  document ++ renderer.fileTokens

/-- What tells the files apart that a construct may include. -/
def includable (renderer : Renderer repo) (token : Comment.Token) : List (List String) :=
  match token.construct with
  | .inclusion name => (renderer.candidates name).map Path.components
  | _ => []

/-- Every file that can be included while a document is rendered. -/
def inclusions (renderer : Renderer repo) (document : List Comment.Token) : List (List String) :=
  (renderer.reachable document).flatMap renderer.includable

theorem findFile?_sound {renderer : Renderer repo} {name path : Path} {text : String}
    (h : renderer.findFile? name = some (path, text)) :
    path ∈ renderer.candidates name ∧
      ∃ location bytes, (location, bytes) ∈ renderer.files.files ∧
        text = Text.Utf8.decodeLossy bytes := by
  obtain ⟨candidate, hcandidate, hread⟩ := List.exists_of_findSome?_eq_some h
  obtain ⟨bytes, hbytes, hpair⟩ := Option.map_eq_some_iff.mp hread
  cases hpair
  obtain ⟨location, hmem⟩ := FileSystem.mem_files_of_read? hbytes
  exact ⟨hcandidate, location, bytes, hmem, rfl⟩

theorem renderInclusion_splice {renderer : Renderer repo} {state : RenderState}
    {name written text : String} {path : Path}
    (h : renderer.renderInclusion state name written = .splice path text) :
    renderer.findFile? name = some (path, text) ∧
      Path.components path ∉ state.including := by
  unfold renderInclusion at h
  split at h
  · simp at h
  · rename_i found contents hfind
    split at h
    · simp at h
    · rename_i hnew
      split at h
      · simp at h
      · simp only [Rendering.splice.injEq] at h
        obtain ⟨rfl, rfl⟩ := h
        exact ⟨hfind, hnew⟩

theorem renderToken_splice {renderer : Renderer repo} {owner : Option repo.Ref}
    {state : RenderState} {token : Comment.Token} {path : Path} {text : String}
    (h : renderer.renderToken owner state token = .splice path text) :
    ∃ name, token.construct = .inclusion name ∧
      renderer.findFile? name = some (path, text) ∧
      Path.components path ∉ state.including := by
  unfold renderToken at h
  cases hconstruct : token.construct with
  | inclusion name =>
      rw [hconstruct] at h
      exact ⟨name, rfl, renderInclusion_splice h⟩
  | newParagraph => cases hcode : state.inCode <;> simp [hconstruct, hcode, Rendering.chunks] at h
  | note | heading =>
      cases hcode : state.inCode <;>
        simp [hconstruct, hcode, Rendering.chunks, Rendering.reference] at h
  | _ => simp [hconstruct, Rendering.chunks, Rendering.reference] at h

theorem renderToken_including {renderer : Renderer repo} {owner : Option repo.Ref}
    {state after : RenderState} {token : Comment.Token} {output : Output}
    (h : renderer.renderToken owner state token = .finished output after) :
    after.including = state.including := by
  unfold renderToken at h
  cases hconstruct : token.construct with
  | inclusion name =>
      simp only [hconstruct, renderInclusion] at h
      split at h
      · cases h; rfl
      · split at h
        · cases h; rfl
        · split at h <;> cases h
          rfl
  | note | heading | newParagraph =>
      cases hcode : state.inCode <;>
        simp [hconstruct, hcode, Rendering.chunks, Rendering.reference] at h <;>
        simp [← h.2, RenderState.atHeading]
  | _ =>
      simp [hconstruct, Rendering.chunks, Rendering.reference] at h
      simp [← h.2, RenderState.enterCode, RenderState.leaveCode]

/-- Text that is rendered in place of a construct is that of a file which can be included and
is not being included, and its constructs are reachable again. -/
theorem splice_reachable {renderer : Renderer repo} {owner : Option repo.Ref}
    {state : RenderState} {document : List Comment.Token} {token : Comment.Token} {path : Path}
    {text : String} (h : renderer.renderToken owner state token = .splice path text)
    (hmem : token ∈ renderer.reachable document) :
    Path.components path ∈ renderer.inclusions document ∧
      Path.components path ∉ state.including ∧
      (renderer.tokens text).length ≤ renderer.fileTokens.length ∧
      ∀ inner ∈ renderer.tokens text, inner ∈ renderer.reachable document := by
  obtain ⟨name, hconstruct, hfind, hnew⟩ := renderToken_splice h
  obtain ⟨hcandidate, location, bytes, hfile, rfl⟩ := findFile?_sound hfind
  have hsub : (renderer.tokens (Text.Utf8.decodeLossy bytes)).Sublist renderer.fileTokens :=
    List.sublist_flatten_of_mem (List.mem_map.mpr ⟨(location, bytes), hfile, rfl⟩)
  refine ⟨List.mem_flatMap.mpr ⟨token, hmem, ?_⟩, hnew, hsub.length_le, fun inner hinner => ?_⟩
  · simp only [includable, hconstruct]
    exact List.mem_map_of_mem hcandidate
  · exact List.mem_append_right _ (hsub.subset hinner)

end Renderer

end DocMarkup
