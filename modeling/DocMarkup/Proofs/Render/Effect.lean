import DocMarkup.Proofs.Render.Trace

/-!
What constructs do to the elements that are open.

Most constructs give text and links, which leave all as it is. The others close and open
paragraphs, code and sections, and what they do is listed once for all that follows.
-/

namespace DocMarkup

def Construct.level? : Construct → Option Nat
  | heading level _ => some level
  | _ => none

namespace Page

/-- Text, and links with nothing but text in them. -/
inductive Inline : List Chunk → Prop
  | nil : Inline []
  | text {content : String} {rest : List Chunk} (hrest : Inline rest) :
      Inline (.text content :: rest)
  | link {attributes : Attributes} {content : String} {rest : List Chunk} (hrest : Inline rest) :
      Inline (.openTag "link" attributes :: .text content :: .closeTag "link" :: rest)
  | emptyLink {attributes : Attributes} {rest : List Chunk} (hrest : Inline rest) :
      Inline (.emptyTag "link" attributes :: rest)

namespace Inline

variable {first second : List Chunk}

theorem append (hfirst : Inline first) (hsecond : Inline second) : Inline (first ++ second) := by
  induction hfirst with
  | nil => exact hsecond
  | text _ ih => exact .text ih
  | link _ ih => exact .link ih
  | emptyLink _ ih => exact .emptyLink ih

theorem ofText (content : String) : Inline [.text content] :=
  .text .nil

theorem flatMap {α : Type} {items : List α} {chunks : α → List Chunk}
    (h : ∀ item ∈ items, Inline (chunks item)) : Inline (items.flatMap chunks) := by
  induction items with
  | nil => exact .nil
  | cons item rest ih =>
      have hrest := ih fun other hmem => h other (List.mem_cons_of_mem item hmem)
      exact (h item List.mem_cons_self).append hrest

theorem isOf_eq_false {name : String} (h : Inline first) (hname : name ≠ "link") :
    ∀ tag ∈ tagsOf first, tag.isOf name = false := by
  induction h with
  | nil => exact fun _ hmem => nomatch hmem
  | text _ ih => exact ih
  | link _ ih =>
      intro tag hmem
      rcases List.mem_cons.mp hmem with rfl | hmem
      · simp [Tag.isOf, hname.symm]
      · rcases List.mem_cons.mp hmem with rfl | hmem
        · simp [Tag.isOf, hname.symm]
        · exact ih tag hmem
  | emptyLink _ ih =>
      intro tag hmem
      rcases List.mem_cons.mp hmem with rfl | hmem
      · simp [Tag.isOf]
      · exact ih tag hmem

theorem reads {σ : Type} {read : σ → Tag → Option σ} (h : Inline first)
    (hlink : ∀ state, ∃ inside, read state (.opening "link") = some inside ∧
      read inside (.closing "link") = some state)
    (hempty : ∀ state, read state (.empty "link") = some state) (state : σ) :
    (tagsOf first).foldlM read state = some state := by
  induction h with
  | nil => rfl
  | text _ ih => exact ih
  | @link attributes content rest _ ih =>
      obtain ⟨inside, hopening, hclosing⟩ := hlink state
      have htags : tagsOf (.openTag "link" attributes :: .text content :: .closeTag "link" :: rest) =
          .opening "link" :: .closing "link" :: tagsOf rest := rfl
      simp [htags, List.foldlM_cons, hopening, hclosing, ih]
  | @emptyLink attributes rest _ ih =>
      have htags : tagsOf (.emptyTag "link" attributes :: rest) = .empty "link" :: tagsOf rest :=
        rfl
      simp [htags, List.foldlM_cons, hempty, ih]

end Inline

/-- The tags of sections lead the reader from one number of open sections to another, where
`opened` is what it makes of each number. -/
structure CountsSections {σ : Type} (read : σ → Tag → Option σ) (opened : Nat → σ) : Prop where
  opening : ∀ depth, read (opened depth) (.opening "section") = some (opened (depth + 1))
  closing : ∀ depth, read (opened (depth + 1)) (.closing "section") = some (opened depth)

namespace CountsSections

variable {σ : Type} {read : σ → Tag → Option σ} {opened : Nat → σ}

theorem closings (h : CountsSections read opened) (count depth : Nat) :
    (tagsOf (List.replicate count (.closeTag "section"))).foldlM read (opened (depth + count)) =
      some (opened depth) := by
  induction count with
  | zero => rfl
  | succ count ih =>
      have htags : tagsOf (List.replicate (count + 1) (.closeTag "section")) =
          .closing "section" :: tagsOf (List.replicate count (.closeTag "section")) := rfl
      rw [htags, List.foldlM_cons, ← Nat.add_assoc, h.closing]
      exact ih

theorem openings (h : CountsSections read opened) (count depth : Nat) :
    (tagsOf (List.replicate count (.openTag "section" []))).foldlM read (opened depth) =
      some (opened (depth + count)) := by
  induction count generalizing depth with
  | zero => rfl
  | succ count ih =>
      have htags : tagsOf (List.replicate (count + 1) (.openTag "section" [])) =
          .opening "section" :: tagsOf (List.replicate count (.openTag "section" [])) := rfl
      rw [htags, List.foldlM_cons, h.opening, Nat.add_comm count 1, ← Nat.add_assoc]
      exact ih (depth + 1)

theorem headingTags (h : CountsSections read opened) (state : RenderState) (level : Nat) :
    (tagsOf (state.headingTags level)).foldlM read (opened state.openSections) =
      some (opened (max level 1)) := by
  let kept := min state.openSections (level - 1)
  have hclose := h.closings (state.openSections - kept) kept
  have hopen := h.openings (max level 1 - kept) kept
  rw [Nat.add_sub_cancel' (Nat.min_le_left _ _)] at hclose
  rw [Nat.add_sub_cancel' (show kept ≤ max level 1 by omega)] at hopen
  exact foldlM_tagsOf_append hclose hopen

theorem sectionEnds (h : CountsSections read opened) (state : RenderState) :
    (tagsOf state.sectionEnds).foldlM read (opened state.openSections) = some (opened 0) := by
  have hclose := h.closings state.openSections 0
  rw [Nat.zero_add] at hclose
  exact hclose

end CountsSections

end Page

theorem Link.inline_chunks (link : Link) : Page.Inline link.chunks := by
  obtain ⟨attributes, text⟩ := link
  cases text with
  | none => exact .emptyLink .nil
  | some text => exact .link .nil

theorem LinkStyle.inline_rendered {repo : Repository} (style : LinkStyle repo)
    (ref : Option repo.Ref) (text : Option String) (plural : Bool) :
    Page.Inline (style.rendered ref text plural) := by
  cases ref with
  | none => exact Link.inline_chunks _
  | some ref =>
      refine (Link.inline_chunks _).append ?_
      rw [List.map_eq_flatMap]
      exact .flatMap fun name _ => .ofText _

namespace Renderer

variable {repo : Repository} {renderer : Renderer repo} {owner : Option repo.Ref}

theorem inline_link (ref : Option repo.Ref) (text : Option String) (plural : Bool) :
    Page.Inline (renderer.link ref text plural).chunks :=
  LinkStyle.inline_rendered _ _ _ _

theorem inline_word (fragment : Text.Fragment × String) :
    Page.Inline (renderer.word fragment).chunks := by
  obtain ⟨fragment, piece⟩ := fragment
  cases fragment with
  | word =>
      simp only [word]
      cases repo.entityOfWord? piece with
      | some ref => exact inline_link _ _ _
      | none => exact .ofText piece
  | _ => exact .ofText piece

theorem inline_plainText (text : String) : Page.Inline (renderer.plainText text).chunks := by
  unfold plainText
  split
  · rw [chunks_join, List.flatMap_map]
    exact .flatMap fun fragment _ => inline_word fragment
  · exact .ofText _

theorem inline_propertyLink? {typeName propertyName : String} {found : Output}
    (h : renderer.propertyLink? typeName propertyName = some found) :
    Page.Inline found.chunks := by
  obtain ⟨ref, -, h⟩ := Option.bind_eq_some_iff.mp h
  obtain ⟨property, -, h⟩ := Option.bind_eq_some_iff.mp h
  cases h
  exact inline_link _ _ _

theorem inline_signalLink? {typeName signalName : String} {found : Output}
    (h : renderer.signalLink? typeName signalName = some found) : Page.Inline found.chunks := by
  obtain ⟨ref, -, h⟩ := Option.bind_eq_some_iff.mp h
  obtain ⟨signal, -, h⟩ := Option.bind_eq_some_iff.mp h
  cases h
  exact inline_link _ _ _

theorem inline_typeLink? {typeName : String} {found : Output}
    (h : renderer.typeLink? typeName = some found) : Page.Inline found.chunks := by
  unfold typeLink? at h
  split at h
  · cases h
    exact inline_link _ _ _
  · obtain ⟨singular, -, h⟩ := Option.bind_eq_some_iff.mp h
    obtain ⟨ref, -, h⟩ := Option.bind_eq_some_iff.mp h
    cases h
    exact inline_link _ _ _

theorem inline_callLink? {symbol call : String} {found : Output}
    (h : renderer.callLink? symbol call = some found) : Page.Inline found.chunks := by
  obtain ⟨ref, -, rfl⟩ := Option.map_eq_some_iff.mp h
  exact inline_link _ _ _

/-- What a construct does to code elements where it stands. -/
inductive CodeRole
  | opens
  | closes
  | encloses
  | none
  deriving DecidableEq, Repr

def codeRole (renderer : Renderer repo) (owner : Option repo.Ref) : Construct → CodeRole
  | .codeStart => .opens
  | .codeStartWithLanguage _ => .opens
  | .codeEnd => .closes
  | .enumValue member =>
      if (renderer.language.literal? member).isSome then .encloses else .none
  | .parameter name => if (renderer.parameter? owner name).isSome then .encloses else .none
  | _ => .none

/-- The constructs that show as something else than text and links, with what they give and
the state after them. -/
inductive Effect (renderer : Renderer repo) (owner : Option repo.Ref) (before : RenderState) :
    Construct → List Page.Chunk → RenderState → Prop
  | inline {construct : Construct} {chunks : List Page.Chunk}
      (hrole : renderer.codeRole owner construct = .none)
      (hheading : before.inCode = false → construct.level? = none)
      (hinline : Page.Inline chunks) : Effect renderer owner before construct chunks before
  | encloses {construct : Construct} {chunks : List Page.Chunk}
      (hrole : renderer.codeRole owner construct = .encloses) (hinline : Page.Inline chunks) :
      Effect renderer owner before construct
        (.openTag "code" [] :: chunks ++ [.closeTag "code"]) before
  | opens {construct : Construct} (language : Option String)
      (hrole : renderer.codeRole owner construct = .opens) :
      Effect renderer owner before construct (codeTags language) before.enterCode
  | closes : Effect renderer owner before .codeEnd [.closeTag "code", .openTag "p" []]
      before.leaveCode
  | paragraph (hcode : before.inCode = false) :
      Effect renderer owner before .newParagraph [.closeTag "p", .openTag "p" []] before
  | note (contents : String) (hcode : before.inCode = false) :
      Effect renderer owner before (.note contents) (noteTags contents) before
  | heading (level : Nat) (title : String) (hcode : before.inCode = false) :
      Effect renderer owner before (.heading level title)
        (.closeTag "p" :: before.headingTags level ++ titleTags title) (before.atHeading level)

section

variable {before after : RenderState} {construct : Construct} {output : Output} {text : String}

theorem effect_reference {link : Option Output}
    (hrole : renderer.codeRole owner construct = .none)
    (hheading : before.inCode = false → construct.level? = none)
    (hlink : ∀ found, link = some found → Page.Inline found.chunks)
    (h : Rendering.reference before text link = .finished output after) :
    Effect renderer owner before construct output.chunks after := by
  cases h
  apply Effect.inline hrole hheading
  cases link with
  | none => exact .ofText _
  | some found => exact hlink found rfl

theorem effect_chunks {chunks : List Page.Chunk} {state : RenderState}
    (heffect : Effect renderer owner before construct chunks state)
    (h : Rendering.chunks state chunks = .finished output after) :
    Effect renderer owner before construct output.chunks after := by
  cases h
  exact heffect

end

theorem effect_of_finished {before after : RenderState} {token : Comment.Token} {output : Output}
    (h : renderer.renderToken owner before token = .finished output after) :
    Effect renderer owner before token.construct output.chunks after := by
  obtain ⟨construct, text⟩ := token
  cases construct with
  | other =>
      cases h
      exact .inline rfl (fun _ => rfl) (inline_plainText text)
  | newLine => exact effect_chunks (.inline rfl (fun _ => rfl) (.ofText _)) h
  | newParagraph =>
      simp only [renderToken] at h
      split at h
      · exact effect_chunks (.inline rfl (fun _ => rfl) (.ofText _)) h
      · next hcode => exact effect_chunks (.paragraph (by simpa using hcode)) h
  | codeStart => exact effect_chunks (.opens none rfl) h
  | codeStartWithLanguage language => exact effect_chunks (.opens (some language) rfl) h
  | codeEnd => exact effect_chunks .closes h
  | note contents =>
      simp only [renderToken] at h
      split at h
      · exact effect_reference rfl (fun _ => rfl) (fun _ hlink => by cases hlink) h
      · next hcode => exact effect_chunks (.note contents (by simpa using hcode)) h
  | heading level title =>
      simp only [renderToken] at h
      split at h
      · next hcode => exact effect_reference rfl (by simp [hcode]) (fun _ hlink => by cases hlink) h
      · next hcode => exact effect_chunks (.heading level title (by simpa using hcode)) h
  | property typeName propertyName =>
      exact effect_reference rfl (fun _ => rfl) (fun _ => inline_propertyLink?) h
  | signal typeName signalName =>
      exact effect_reference rfl (fun _ => rfl) (fun _ => inline_signalLink?) h
  | typeName typeName =>
      exact effect_reference rfl (fun _ => rfl) (fun _ => inline_typeLink?) h
  | enumValue member =>
      have h : Rendering.reference before text (renderer.enumValue? member) = _ := h
      unfold enumValue? at h
      cases hliteral : renderer.language.literal? member with
      | none =>
          rw [hliteral] at h
          refine effect_reference (by simp [codeRole, hliteral]) (fun _ => rfl) ?_ h
          intro found hfound
          obtain ⟨ref, -, rfl⟩ := Option.map_eq_some_iff.mp hfound
          exact inline_link _ _ _
      | some literal =>
          rw [hliteral] at h
          cases h
          exact .encloses (by simp [codeRole, hliteral]) (.ofText literal)
  | parameter name =>
      have h : Rendering.reference before text (renderer.parameter? owner name) = _ := h
      cases hparameter : renderer.parameter? owner name with
      | none =>
          rw [hparameter] at h
          exact effect_reference (by simp [codeRole, hparameter]) (fun _ => rfl)
            (fun _ hlink => by cases hlink) h
      | some found =>
          rw [hparameter] at h
          obtain ⟨ref, -, hfound⟩ := Option.bind_eq_some_iff.mp hparameter
          obtain ⟨callable, -, hfound⟩ := Option.bind_eq_some_iff.mp hfound
          obtain ⟨parameter, -, hfound⟩ := Option.bind_eq_some_iff.mp hfound
          cases hfound
          cases h
          exact .encloses (by simp [codeRole, hparameter]) (.ofText _)
  | functionCall symbol =>
      exact effect_reference rfl (fun _ => rfl) (fun _ => inline_callLink?) h
  | inclusion name =>
      have h : renderer.renderInclusion before name text = _ := h
      unfold renderInclusion at h
      split at h
      · cases h
        exact .inline rfl (fun _ => rfl) (.ofText _)
      · split at h
        · cases h
          exact .inline rfl (fun _ => rfl) (.ofText _)
        · split at h
          · cases h
            exact .inline rfl (fun _ => rfl) (inline_plainText _)
          · cases h

end Renderer

end DocMarkup
