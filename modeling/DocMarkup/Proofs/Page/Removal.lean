import DocMarkup.Proofs.Page.Tags

/-!
Markup without the tags of an element.

If the text between tags starts none, then taking the tags of an element out of what chunks are
written as leaves what the other chunks are written as.
-/

namespace DocMarkup.Page

def Tag.element? : Tag → Option String
  | opening name => some name
  | closing name => some name
  | empty name => some name
  | unfinished => none

def leftOfTag (element : String) (content : List Char) : List Char :=
  if (Tag.ofContent content).element? = some element then [] else '<' :: content ++ ['>']

/-- A text without the tags of an element, given what was read of a tag that has started. -/
def removeTags (element : String) : Option (List Char) → List Char → List Char
  | none, [] => []
  | some content, [] => '<' :: content
  | none, char :: rest =>
      if char = '<' then removeTags element (some []) rest
      else char :: removeTags element none rest
  | some content, char :: rest =>
      if char = '>' then leftOfTag element content ++ removeTags element none rest
      else if char = '<' then '<' :: content ++ removeTags element (some []) rest
      else removeTags element (some (content ++ [char])) rest

def withoutTags (element markup : String) : String :=
  String.ofList (removeTags element none markup.toList)

section

variable {element : String}

theorem removeTags_text {text : List Char} (htext : '<' ∉ text) (rest : List Char) :
    removeTags element none (text ++ rest) = text ++ removeTags element none rest := by
  induction text with
  | nil => rfl
  | cons char text ih =>
      obtain ⟨hchar, htext⟩ := List.ne_and_not_mem_of_not_mem_cons htext
      rw [List.cons_append, removeTags, if_neg hchar.symm, ih htext, List.cons_append]

theorem removeTags_content {content : List Char} (hless : '<' ∉ content)
    (hgreater : '>' ∉ content) (read rest : List Char) :
    removeTags element (some read) (content ++ '>' :: rest) =
      leftOfTag element (read ++ content) ++ removeTags element none rest := by
  induction content generalizing read with
  | nil => simp [removeTags]
  | cons char content ih =>
      obtain ⟨hcharLess, hless⟩ := List.ne_and_not_mem_of_not_mem_cons hless
      obtain ⟨hcharGreater, hgreater⟩ := List.ne_and_not_mem_of_not_mem_cons hgreater
      rw [List.cons_append, removeTags, if_neg hcharGreater.symm, if_neg hcharLess.symm,
        ih hless hgreater, List.append_assoc, List.singleton_append]

theorem removeTags_tag {content : List Char} (hless : '<' ∉ content) (hgreater : '>' ∉ content)
    (rest : List Char) :
    removeTags element none ('<' :: content ++ '>' :: rest) =
      leftOfTag element content ++ removeTags element none rest := by
  rw [List.cons_append, removeTags, if_pos rfl, removeTags_content hless hgreater,
    List.nil_append]

end

namespace Chunk

def isTagOf (element : String) (chunk : Chunk) : Bool :=
  chunk.tags.any fun tag => tag.element? == some element

/-- The content of a tag stands between angle brackets and has none in it. -/
structure WrittenTag (chunk : Chunk) (content : List Char) : Prop where
  write : chunk.write = '<' :: content ++ ['>']
  less : '<' ∉ content
  greater : '>' ∉ content
  tags : chunk.tags = [Tag.ofContent content]

theorem Clean.text_or_tag {chunk : Chunk} (h : chunk.Clean) :
    (chunk.tags = [] ∧ '<' ∉ chunk.write) ∨ ∃ content, chunk.WrittenTag content := by
  cases chunk with
  | text content => exact .inl ⟨rfl, h⟩
  | openTag name attributes =>
      obtain ⟨hless, hgreater⟩ := angle_not_mem_startContent h.1 h.2
      exact .inr ⟨startContent name attributes, by simp [Chunk.write, startContent], hless,
        hgreater, by rw [ofContent_startContent h.1]; rfl⟩
  | closeTag name =>
      have hname : PlainName name := h
      exact .inr ⟨'/' :: name.toList, rfl, by simp [hname.not_mem], by simp [hname.not_mem],
        by simp [Chunk.tags, Tag.ofContent]⟩
  | emptyTag name attributes =>
      obtain ⟨hless, hgreater⟩ := angle_not_mem_startContent h.1 h.2
      exact .inr ⟨startContent name attributes ++ ['/'], by simp [Chunk.write, startContent],
        List.not_mem_append hless (by decide), List.not_mem_append hgreater (by decide),
        by rw [ofContent_startContent_slash h.1]; rfl⟩

theorem removeTags_write {element : String} {chunk : Chunk} (h : chunk.Clean)
    (rest : List Char) :
    removeTags element none (chunk.write ++ rest) =
      (if chunk.isTagOf element then [] else chunk.write) ++ removeTags element none rest := by
  rcases h.text_or_tag with ⟨htags, htext⟩ | ⟨content, hwrite, hless, hgreater, htags⟩
  · rw [removeTags_text htext, isTagOf, htags]
    rfl
  · have hsame : leftOfTag element content = if chunk.isTagOf element then [] else chunk.write := by
      rw [leftOfTag, isTagOf, htags, hwrite]
      simp
    rw [← hsame, ← removeTags_tag hless hgreater, hwrite]
    simp

end Chunk

theorem withoutTags_write {element : String} {chunks : List Chunk} (h : CleanAll chunks) :
    (withoutTags element (write chunks)).toList =
      (chunks.filter fun chunk => !chunk.isTagOf element).flatMap Chunk.write := by
  rw [withoutTags, String.toList_ofList, toList_write]
  induction chunks with
  | nil => rfl
  | cons chunk chunks ih =>
      obtain ⟨hchunk, hchunks⟩ := List.forall_mem_cons.mp h
      rw [List.flatMap_cons, Chunk.removeTags_write hchunk, ih hchunks]
      cases hof : chunk.isTagOf element <;> simp [hof]

end DocMarkup.Page
