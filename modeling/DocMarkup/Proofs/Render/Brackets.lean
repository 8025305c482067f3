import DocMarkup.Proofs.Render.Markup

/-!
Where the angle brackets of a document come from.

A bracket that opens is written at the start of a tag of one of the page's elements and nowhere
else: what comes from comments, files and references is text without brackets, or the value of
an attribute without brackets and quotes.
-/

namespace DocMarkup

namespace Page

def elementNames : List String := ["p", "code", "note", "section", "title", "link"]

/-- Attributes as they are written, whose values have no quotes or brackets. -/
inductive AttributeText : List Char → Prop
  | nil : AttributeText []
  | cons {key value rest : List Char} (hkey : key.all Char.isAlpha)
      (hvalue : '"' ∉ value ∧ '<' ∉ value ∧ '>' ∉ value) (hrest : AttributeText rest) :
      AttributeText (' ' :: key ++ "=\"".toList ++ value ++ ['"'] ++ rest)

/-- The tags of the page's elements as they are written. -/
inductive TagText : List Char → Prop
  | opening {name : String} {attributes : List Char} (hname : name ∈ elementNames)
      (hattributes : AttributeText attributes) :
      TagText ('<' :: name.toList ++ attributes ++ ['>'])
  | closing {name : String} (hname : name ∈ elementNames) :
      TagText ("</".toList ++ name.toList ++ ['>'])
  | empty {name : String} {attributes : List Char} (hname : name ∈ elementNames)
      (hattributes : AttributeText attributes) :
      TagText ('<' :: name.toList ++ attributes ++ "/>".toList)

theorem attributeText_write {attributes : Attributes} (hkeys : PlainKeys attributes) :
    AttributeText (attributes.flatMap Chunk.writeAttribute) := by
  induction attributes with
  | nil => exact .nil
  | cons pair rest ih =>
      obtain ⟨hless, hgreater⟩ := Text.angle_not_mem_escapeValue pair.2
      have hquote : '"' ∉ (Text.escapeValue pair.2).toList := by
        rw [Text.toList_escapeValue]
        exact Text.quote_not_mem_quoteChars _
      have hrest := ih fun other hmem => hkeys other (List.mem_cons_of_mem pair hmem)
      exact .cons (hkeys pair List.mem_cons_self).letters ⟨hquote, hless, hgreater⟩ hrest

namespace Chunk

def Known : Chunk → Prop
  | text _ => True
  | openTag name _ => name ∈ elementNames
  | closeTag name => name ∈ elementNames
  | emptyTag name _ => name ∈ elementNames

instance (chunk : Chunk) : Decidable chunk.Known :=
  match chunk with
  | .text _ => inferInstanceAs (Decidable True)
  | .openTag name _ | .closeTag name | .emptyTag name _ =>
      inferInstanceAs (Decidable (name ∈ elementNames))

/-- How a chunk is written: text without brackets, or a tag with one at its start only. -/
inductive Written (chunk : Chunk) : Prop
  | plain (htags : chunk.tags = []) (htext : '<' ∉ chunk.write)
  | tag (inner : List Char) (htags : chunk.tags ≠ []) (hwrite : chunk.write = '<' :: inner)
      (hinner : '<' ∉ inner) (htext : TagText chunk.write)

theorem written {chunk : Chunk} (hclean : chunk.Clean) (hknown : chunk.Known) :
    chunk.Written := by
  cases chunk with
  | text content => exact .plain rfl hclean
  | openTag name attributes =>
      obtain ⟨hname, hkeys⟩ := hclean
      have hinner := (angle_not_mem_startContent hname hkeys).1
      exact .tag (startContent name attributes ++ ['>']) (List.cons_ne_nil _ _) rfl
        (List.not_mem_append hinner (by decide)) (.opening hknown (attributeText_write hkeys))
  | closeTag name =>
      have hinner : '<' ∉ '/' :: name.toList ++ ['>'] :=
        List.not_mem_append (List.not_mem_cons_of_ne_of_not_mem (by decide)
          (PlainName.not_mem hclean rfl)) (by decide)
      exact .tag _ (List.cons_ne_nil _ _) rfl hinner (.closing hknown)
  | emptyTag name attributes =>
      obtain ⟨hname, hkeys⟩ := hclean
      have hinner := (angle_not_mem_startContent hname hkeys).1
      exact .tag (startContent name attributes ++ "/>".toList) (List.cons_ne_nil _ _) rfl
        (List.not_mem_append hinner (by decide)) (.empty hknown (attributeText_write hkeys))

end Chunk

def KnownAll (chunks : List Chunk) : Prop :=
  ∀ chunk ∈ chunks, chunk.Known

instance (chunks : List Chunk) : Decidable (KnownAll chunks) :=
  inferInstanceAs (Decidable (∀ chunk ∈ chunks, chunk.Known))

theorem KnownAll.append {first second : List Chunk} (hfirst : KnownAll first)
    (hsecond : KnownAll second) : KnownAll (first ++ second) :=
  List.forall_mem_append.mpr ⟨hfirst, hsecond⟩

theorem KnownAll.replicate (count : Nat) {chunk : Chunk} (h : chunk.Known) :
    KnownAll (List.replicate count chunk) := by
  intro other hmem
  rw [List.eq_of_mem_replicate hmem]
  exact h

theorem Inline.known {chunks : List Chunk} (h : Inline chunks) : KnownAll chunks := by
  have hlink : "link" ∈ elementNames := by decide
  induction h with
  | nil => exact fun _ hmem => nomatch hmem
  | text _ ih => exact List.forall_mem_cons.mpr ⟨trivial, ih⟩
  | link _ ih =>
      exact List.forall_mem_cons.mpr ⟨hlink, List.forall_mem_cons.mpr ⟨trivial,
        List.forall_mem_cons.mpr ⟨hlink, ih⟩⟩⟩
  | emptyLink _ ih => exact List.forall_mem_cons.mpr ⟨hlink, ih⟩

/-- Where chunks have a bracket that opens: at the start of the text `after`, which starts with
a tag, while `before` are the chunks up to that tag. -/
def TagAt (chunks : List Chunk) (before after : List Char) : Prop :=
  ∃ done tag later, chunks = done ++ tag :: later ∧ before = done.flatMap Chunk.write ∧
    after = tag.write ++ later.flatMap Chunk.write ∧ tag.tags ≠ [] ∧ TagText tag.write

theorem TagAt.cons {chunks : List Chunk} {before after : List Char} (chunk : Chunk)
    (h : TagAt chunks before after) : TagAt (chunk :: chunks) (chunk.write ++ before) after := by
  obtain ⟨done, tag, later, rfl, rfl, hafter, htag⟩ := h
  exact ⟨chunk :: done, tag, later, rfl, rfl, hafter, htag⟩

theorem exists_of_append_eq {text rest before after : List Char} (htext : '<' ∉ text)
    (h : before ++ '<' :: after = text ++ rest) :
    ∃ between, before = text ++ between ∧ rest = between ++ '<' :: after := by
  rcases List.append_eq_append_iff.mp h with ⟨between, htext', hafter⟩ | ⟨between, hbefore, hrest⟩
  · cases between with
    | nil =>
        rw [List.append_nil] at htext'
        exact ⟨[], by rw [htext', List.append_nil], hafter.symm⟩
    | cons char between =>
        cases hafter
        exact absurd (htext' ▸ List.mem_append_right _ List.mem_cons_self) htext
  · exact ⟨between, hbefore, hrest⟩

theorem tagAt_of_less {chunks : List Chunk} (hclean : CleanAll chunks) (hknown : KnownAll chunks)
    {before after : List Char} (h : chunks.flatMap Chunk.write = before ++ '<' :: after) :
    TagAt chunks before ('<' :: after) := by
  induction chunks generalizing before with
  | nil => simp at h
  | cons chunk chunks ih =>
      have hlater : ∀ {between : List Char},
          chunks.flatMap Chunk.write = between ++ '<' :: after →
            TagAt chunks between ('<' :: after) :=
        fun hrest => ih (fun other hmem => hclean other (List.mem_cons_of_mem chunk hmem))
          (fun other hmem => hknown other (List.mem_cons_of_mem chunk hmem)) hrest
      rw [List.flatMap_cons] at h
      cases Chunk.written (hclean chunk List.mem_cons_self) (hknown chunk List.mem_cons_self) with
      | plain _ htext =>
          obtain ⟨between, rfl, hrest⟩ := exists_of_append_eq htext h.symm
          exact (hlater hrest).cons chunk
      | tag inner htags hwrite hinner htext =>
          cases before with
          | nil => exact ⟨[], chunk, chunks, rfl, rfl, h.symm, htags, htext⟩
          | cons char before =>
              rw [hwrite, List.cons_append, List.cons_append] at h
              obtain ⟨rfl, hinside⟩ := List.cons_eq_cons.mp h
              obtain ⟨between, rfl, hrest⟩ := exists_of_append_eq hinner hinside.symm
              have htag := (hlater hrest).cons chunk
              rwa [hwrite] at htag

end Page

namespace Renderer

open Page

variable {repo : Repository} {renderer : Renderer repo} {owner : Option repo.Ref}

theorem known_codeTags (language : Option String) : KnownAll (codeTags language) :=
  have hparagraph : Chunk.Known (.closeTag "p") := by decide
  have hcode : "code" ∈ elementNames := by decide
  List.forall_mem_cons.mpr ⟨hparagraph, List.forall_mem_singleton.mpr hcode⟩

theorem known_noteTags (contents : String) : KnownAll (noteTags contents) := by
  have hstart : KnownAll [.closeTag "p", .openTag "note" [], .openTag "p" []] := by decide
  have hend : KnownAll [.closeTag "p", .closeTag "note", .openTag "p" []] := by decide
  exact (hstart.append (Inline.ofText _).known).append hend

theorem known_titleTags (title : String) : KnownAll (titleTags title) := by
  have hstart : KnownAll [.openTag "title" []] := by decide
  have hend : KnownAll [.closeTag "title", .openTag "p" []] := by decide
  exact (hstart.append (Inline.ofText _).known).append hend

theorem known_headingTags (state : RenderState) (level : Nat) :
    KnownAll (state.headingTags level) :=
  (KnownAll.replicate _ (by decide)).append (.replicate _ (by decide))

theorem Effect.known {before after : RenderState} {construct : Construct} {chunks : List Chunk}
    (h : Effect renderer owner before construct chunks after) : KnownAll chunks := by
  cases h with
  | inline _ _ hinline => exact hinline.known
  | encloses _ hinline =>
      have hstart : KnownAll [.openTag "code" []] := by decide
      have hend : KnownAll [.closeTag "code"] := by decide
      exact (hstart.append hinline.known).append hend
  | opens language _ => exact known_codeTags language
  | closes => decide
  | paragraph _ => decide
  | note contents _ => exact known_noteTags contents
  | heading level title _ =>
      have hstart : KnownAll [.closeTag "p"] := by decide
      exact (hstart.append (known_headingTags before level)).append (known_titleTags title)

theorem known_outputOf {steps : List Step}
    (hsound : ∀ step ∈ steps, step.Sound renderer owner) : KnownAll (outputOf steps) := by
  intro chunk hmem
  obtain ⟨step, hstep, hmem⟩ := List.mem_flatMap.mp hmem
  exact (effect_of_finished (hsound step hstep).rendered).known chunk hmem

theorem known_documentStart (state : RenderState) : KnownAll (documentStart state) := by
  unfold documentStart
  split <;> decide

theorem known_documentEnd (state last : RenderState) : KnownAll (documentEnd state last) := by
  refine KnownAll.append ?_ (.replicate _ (by decide))
  split
  · decide
  · split <;> decide

theorem known_document (renderer : Renderer repo) (owner : Option repo.Ref) (state : RenderState)
    (text : String) : KnownAll (renderer.document owner state text).1.chunks := by
  rw [chunks_document]
  exact ((known_documentStart state).append (known_outputOf fun _ hmem => steps_sound hmem)).append
    (known_documentEnd _ _)

/-- Every bracket that opens in a rendered comment is the first character of a tag that
rendering writes for an element of pages. No other text has one, wherever it comes from, and no
value of an attribute has a bracket or a quote. -/
theorem comment_brackets (hgrammar : Comment.IsGrammar renderer.grammar) (hrepo : repo.Unmarked)
    (owner : Option repo.Ref) (text : Option String) {before after : List Char}
    (h : (renderer.comment owner text).markup.toList = before ++ '<' :: after) :
    TagAt (renderer.comment owner text).chunks before ('<' :: after) := by
  rw [Output.markup, toList_write] at h
  cases text with
  | none => exact tagAt_of_less .nil (fun _ hmem => nomatch hmem) h
  | some text =>
      exact tagAt_of_less (clean_document hrepo hgrammar) (known_document renderer owner {} text) h

theorem comment_brackets_bare :
    (bare.comment none (some "%NULL <b>")).markup.toList =
        "<p>".toList ++ '<' :: "code>NULL</code> &lt;b&gt;</p>".toList ∧
      TagAt (bare.comment none (some "%NULL <b>")).chunks "<p>".toList
        ('<' :: "code>NULL</code> &lt;b&gt;</p>".toList) := by
  have htext : (bare.comment none (some "%NULL <b>")).markup.toList =
      "<p>".toList ++ '<' :: "code>NULL</code> &lt;b&gt;</p>".toList := by
    decide +kernel
  exact ⟨htext, comment_brackets isGrammar_bare unmarked_bare none (some "%NULL <b>") htext⟩

end Renderer

end DocMarkup
