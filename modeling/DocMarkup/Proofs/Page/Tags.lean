import DocMarkup.Page.Chunk
import DocMarkup.Proofs.Text.Escaping

/-!
The tags of page markup.

Chunks say what tags they are, and the same tags are read off the characters that they are
written as, as long as the text between them starts no tag.
-/

namespace DocMarkup

namespace Page

inductive Tag
  | opening (name : String)
  | closing (name : String)
  | empty (name : String)
  /-- The start of a tag that has no end before the next one starts or the text stops. -/
  | unfinished
  deriving DecidableEq, Repr

def Chunk.tags : Chunk → List Tag
  | text _ => []
  | openTag name _ => [.opening name]
  | closeTag name => [.closing name]
  | emptyTag name _ => [.empty name]

def tagsOf (chunks : List Chunk) : List Tag :=
  chunks.flatMap Chunk.tags

@[simp] theorem tagsOf_append (first second : List Chunk) :
    tagsOf (first ++ second) = tagsOf first ++ tagsOf second :=
  List.flatMap_append

def Tag.isOf (name : String) (tag : Tag) : Bool :=
  tag == .opening name || tag == .closing name

section

variable {σ : Type} {read : σ → Tag → Option σ} {state between : σ} {after : Option σ}
  {first second : List Chunk}

theorem foldlM_tagsOf_append (hfirst : (tagsOf first).foldlM read state = some between)
    (hsecond : (tagsOf second).foldlM read between = after) :
    (tagsOf (first ++ second)).foldlM read state = after := by
  rw [tagsOf_append, List.foldlM_append, hfirst]
  exact hsecond

theorem foldlM_tagsOf_append_none (second : List Chunk)
    (hfirst : (tagsOf first).foldlM read state = none) :
    (tagsOf (first ++ second)).foldlM read state = none := by
  rw [tagsOf_append, List.foldlM_append, hfirst]
  rfl

end

def nameIn (content : List Char) : String :=
  String.ofList (content.takeWhile (· != ' '))

def Tag.ofContent (content : List Char) : Tag :=
  if content.head? = some '/' then .closing (String.ofList content.tail)
  else if content.getLast? = some '/' then .empty (nameIn content.dropLast)
  else .opening (nameIn content)

/-- The tags of a text, given what was read of a tag that has started. -/
def readTags : Option (List Char) → List Char → List Tag
  | none, [] => []
  | some _, [] => [.unfinished]
  | none, char :: rest => if char = '<' then readTags (some []) rest else readTags none rest
  | some content, char :: rest =>
      if char = '>' then Tag.ofContent content :: readTags none rest
      else if char = '<' then .unfinished :: readTags (some []) rest
      else readTags (some (content ++ [char])) rest

def tagsIn (markup : String) : List Tag :=
  readTags none markup.toList

theorem readTags_text {text : List Char} (htext : '<' ∉ text) (rest : List Char) :
    readTags none (text ++ rest) = readTags none rest := by
  induction text with
  | nil => rfl
  | cons char text ih =>
      obtain ⟨hchar, htext⟩ := List.ne_and_not_mem_of_not_mem_cons htext
      rw [List.cons_append, readTags, if_neg hchar.symm, ih htext]

theorem readTags_content {content : List Char} (hless : '<' ∉ content) (hgreater : '>' ∉ content)
    (read rest : List Char) :
    readTags (some read) (content ++ '>' :: rest) =
      Tag.ofContent (read ++ content) :: readTags none rest := by
  induction content generalizing read with
  | nil => simp [readTags]
  | cons char content ih =>
      obtain ⟨hcharLess, hless⟩ := List.ne_and_not_mem_of_not_mem_cons hless
      obtain ⟨hcharGreater, hgreater⟩ := List.ne_and_not_mem_of_not_mem_cons hgreater
      rw [List.cons_append, readTags, if_neg hcharGreater.symm, if_neg hcharLess.symm,
        ih hless hgreater, List.append_assoc, List.singleton_append]

theorem readTags_tag {content : List Char} (hless : '<' ∉ content) (hgreater : '>' ∉ content)
    (rest : List Char) :
    readTags none ('<' :: content ++ '>' :: rest) =
      Tag.ofContent content :: readTags none rest := by
  rw [List.cons_append, readTags, if_pos rfl, readTags_content hless hgreater, List.nil_append]

structure PlainName (name : String) : Prop where
  nonempty : name.toList ≠ []
  letters : name.toList.all Char.isAlpha

instance (name : String) : Decidable (PlainName name) :=
  decidable_of_iff (name.toList ≠ [] ∧ name.toList.all Char.isAlpha)
    ⟨fun h => ⟨h.1, h.2⟩, fun h => ⟨h.nonempty, h.letters⟩⟩

theorem PlainName.not_mem {name : String} (h : PlainName name) {char : Char}
    (hchar : char.isAlpha = false) : char ∉ name.toList := by
  intro hmem
  have hletter := List.all_eq_true.mp h.letters char hmem
  rw [hchar] at hletter
  contradiction

def PlainKeys (attributes : Attributes) : Prop :=
  ∀ pair ∈ attributes, PlainName pair.1

instance (attributes : Attributes) : Decidable (PlainKeys attributes) :=
  inferInstanceAs (Decidable (∀ pair ∈ attributes, PlainName pair.1))

theorem plainKeys_singleton {key : String} (hkey : PlainName key) (value : String) :
    PlainKeys [(key, value)] := by
  intro pair hmem
  cases List.mem_singleton.mp hmem
  exact hkey

/-- The text of the chunk starts no tag, and its names are names. -/
def Chunk.Clean : Chunk → Prop
  | text content => '<' ∉ content.toList
  | openTag name attributes => PlainName name ∧ PlainKeys attributes
  | closeTag name => PlainName name
  | emptyTag name attributes => PlainName name ∧ PlainKeys attributes

instance (chunk : Chunk) : Decidable chunk.Clean :=
  match chunk with
  | .text content => inferInstanceAs (Decidable ('<' ∉ content.toList))
  | .openTag name attributes => inferInstanceAs (Decidable (PlainName name ∧ PlainKeys attributes))
  | .closeTag name => inferInstanceAs (Decidable (PlainName name))
  | .emptyTag name attributes =>
      inferInstanceAs (Decidable (PlainName name ∧ PlainKeys attributes))

def startContent (name : String) (attributes : Attributes) : List Char :=
  name.toList ++ attributes.flatMap Chunk.writeAttribute

theorem not_mem_writeAttribute {pair : String × String} {char : Char}
    (hkey : char ∉ pair.1.toList) (hvalue : char ∉ (Text.escapeValue pair.2).toList)
    (hsigns : char ∉ " =\"".toList) : char ∉ Chunk.writeAttribute pair := by
  obtain ⟨key, value⟩ := pair
  have hspace : char ≠ ' ' := fun h => hsigns (h ▸ by decide)
  have hequals : char ≠ '=' := fun h => hsigns (h ▸ by decide)
  have hquote : char ≠ '"' := fun h => hsigns (h ▸ by decide)
  rw [Text.toList_escapeValue] at hvalue
  simp [Chunk.writeAttribute, hkey, hvalue, hspace, hequals, hquote]

section

variable {name : String} {attributes : Attributes}

theorem angle_not_mem_startContent (hname : PlainName name) (hkeys : PlainKeys attributes) :
    '<' ∉ startContent name attributes ∧ '>' ∉ startContent name attributes := by
  have hpairs : ∀ char ∈ ['<', '>'], char ∉ attributes.flatMap Chunk.writeAttribute := by
    intro char hchar hmem
    obtain ⟨pair, hpair, hmem⟩ := List.mem_flatMap.mp hmem
    obtain ⟨hless, hgreater⟩ := Text.angle_not_mem_escapeValue pair.2
    simp only [List.mem_cons, List.not_mem_nil, or_false] at hchar
    rcases hchar with rfl | rfl
    · exact not_mem_writeAttribute ((hkeys pair hpair).not_mem rfl) hless (by decide) hmem
    · exact not_mem_writeAttribute ((hkeys pair hpair).not_mem rfl) hgreater (by decide) hmem
  constructor
  · exact List.not_mem_append (hname.not_mem rfl) (hpairs '<' (by decide))
  · exact List.not_mem_append (hname.not_mem rfl) (hpairs '>' (by decide))

theorem nameIn_startContent (hname : PlainName name) :
    nameIn (startContent name attributes) = name := by
  have hspace : ∀ char ∈ name.toList, (char != ' ') = true := by
    intro char hmem
    rw [bne_iff_ne]
    rintro rfl
    exact hname.not_mem rfl hmem
  have hpairs : (attributes.flatMap Chunk.writeAttribute).takeWhile (· != ' ') = [] := by
    cases attributes with
    | nil => rfl
    | cons pair rest => rfl
  rw [nameIn, startContent, List.takeWhile_append_of_pos hspace, hpairs, List.append_nil,
    String.ofList_toList]

theorem head?_startContent (hname : PlainName name) (rest : List Char) :
    (startContent name attributes ++ rest).head? ≠ some '/' := by
  obtain ⟨first, letters, hletters⟩ := List.exists_cons_of_ne_nil hname.nonempty
  have hfirst : first ≠ '/' := by
    rintro rfl
    exact hname.not_mem rfl (hletters ▸ List.mem_cons_self)
  simp [startContent, hletters, hfirst]

theorem getLast?_startContent (hname : PlainName name) :
    (startContent name attributes).getLast? ≠ some '/' := by
  rcases attributes.eq_nil_or_concat with rfl | ⟨pairs, last, rfl⟩
  · rw [startContent, List.flatMap_nil, List.append_nil]
    intro hlast
    exact hname.not_mem rfl (List.mem_of_getLast? hlast)
  · obtain ⟨body, hbody⟩ : ∃ body, Chunk.writeAttribute last = body ++ ['"'] := ⟨_, rfl⟩
    simp [startContent, hbody]

theorem ofContent_startContent (hname : PlainName name) :
    Tag.ofContent (startContent name attributes) = .opening name := by
  have hhead : (startContent name attributes).head? ≠ some '/' := by
    rw [← List.append_nil (startContent name attributes)]
    exact head?_startContent hname []
  rw [Tag.ofContent, if_neg hhead, if_neg (getLast?_startContent hname),
    nameIn_startContent hname]

theorem ofContent_startContent_slash (hname : PlainName name) :
    Tag.ofContent (startContent name attributes ++ ['/']) = .empty name := by
  rw [Tag.ofContent, if_neg (head?_startContent hname ['/']), if_pos List.getLast?_concat,
    List.dropLast_concat, nameIn_startContent hname]

end

theorem readTags_openTag {name : String} {attributes : Attributes} (hname : PlainName name)
    (hkeys : PlainKeys attributes) (rest : List Char) :
    readTags none ((Chunk.openTag name attributes).write ++ rest) =
      .opening name :: readTags none rest := by
  obtain ⟨hless, hgreater⟩ := angle_not_mem_startContent hname hkeys
  have htag := readTags_tag hless hgreater rest
  rw [ofContent_startContent hname] at htag
  simpa [Chunk.write, startContent] using htag

theorem readTags_closeTag {name : String} (hname : PlainName name) (rest : List Char) :
    readTags none ((Chunk.closeTag name).write ++ rest) = .closing name :: readTags none rest := by
  have hless : '<' ∉ '/' :: name.toList := by simp [hname.not_mem]
  have hgreater : '>' ∉ '/' :: name.toList := by simp [hname.not_mem]
  have htag := readTags_tag hless hgreater rest
  simpa [Tag.ofContent, Chunk.write] using htag

theorem readTags_emptyTag {name : String} {attributes : Attributes} (hname : PlainName name)
    (hkeys : PlainKeys attributes) (rest : List Char) :
    readTags none ((Chunk.emptyTag name attributes).write ++ rest) =
      .empty name :: readTags none rest := by
  obtain ⟨hless, hgreater⟩ := angle_not_mem_startContent hname hkeys
  have hslashLess := List.not_mem_append hless (show '<' ∉ ['/'] by decide)
  have hslashGreater := List.not_mem_append hgreater (show '>' ∉ ['/'] by decide)
  have htag := readTags_tag hslashLess hslashGreater rest
  rw [ofContent_startContent_slash hname] at htag
  simpa [Chunk.write, startContent] using htag

theorem readTags_write {chunk : Chunk} (h : chunk.Clean) (rest : List Char) :
    readTags none (chunk.write ++ rest) = chunk.tags ++ readTags none rest := by
  cases chunk with
  | text content => exact readTags_text h rest
  | openTag name attributes => exact readTags_openTag h.1 h.2 rest
  | closeTag name => exact readTags_closeTag h rest
  | emptyTag name attributes => exact readTags_emptyTag h.1 h.2 rest

def CleanAll (chunks : List Chunk) : Prop :=
  ∀ chunk ∈ chunks, chunk.Clean

instance (chunks : List Chunk) : Decidable (CleanAll chunks) :=
  inferInstanceAs (Decidable (∀ chunk ∈ chunks, chunk.Clean))

namespace CleanAll

variable {chunk : Chunk} {first second : List Chunk}

theorem nil : CleanAll [] :=
  fun _ hmem => nomatch hmem

theorem cons (hchunk : chunk.Clean) (hrest : CleanAll first) : CleanAll (chunk :: first) := by
  intro other hmem
  rcases List.mem_cons.mp hmem with rfl | hmem
  · exact hchunk
  · exact hrest other hmem

theorem append (hfirst : CleanAll first) (hsecond : CleanAll second) :
    CleanAll (first ++ second) := by
  intro chunk hmem
  rcases List.mem_append.mp hmem with hmem | hmem
  · exact hfirst chunk hmem
  · exact hsecond chunk hmem

theorem flatMap {α : Type} {items : List α} {chunks : α → List Chunk}
    (h : ∀ item ∈ items, CleanAll (chunks item)) : CleanAll (items.flatMap chunks) := by
  intro chunk hmem
  obtain ⟨item, hitem, hmem⟩ := List.mem_flatMap.mp hmem
  exact h item hitem chunk hmem

theorem replicate (count : Nat) (hchunk : chunk.Clean) :
    CleanAll (List.replicate count chunk) := by
  intro other hmem
  rw [List.eq_of_mem_replicate hmem]
  exact hchunk

end CleanAll

/-- The tags of clean chunks are those that are read off what they are written as. -/
theorem tagsIn_write {chunks : List Chunk} (h : CleanAll chunks) :
    tagsIn (write chunks) = tagsOf chunks := by
  rw [tagsIn, toList_write]
  induction chunks with
  | nil => rfl
  | cons chunk chunks ih =>
      have hrest := fun other hmem => h other (List.mem_cons_of_mem chunk hmem)
      rw [List.flatMap_cons, readTags_write (h chunk List.mem_cons_self), ih hrest]
      rfl

end Page

end DocMarkup
