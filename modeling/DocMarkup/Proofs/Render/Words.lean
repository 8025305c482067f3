import DocMarkup.Proofs.Page.Removal
import DocMarkup.Proofs.Render.Linked
import DocMarkup.Proofs.Render.Markup

/-!
Plain text with links for its words.

Links are put around words and change none of them. Where the word is a member of an enumeration
that is shown on the page of its owner, the name of the member follows the link. Nothing else is
added to the text, and all of it stays in order.
-/

namespace DocMarkup

open Page

theorem length_flatMap_le_append {α β : Type} (first second : α → List β) (items : List α) :
    (items.flatMap first).length ≤
      (items.flatMap fun item => first item ++ second item).length := by
  induction items with
  | nil => exact Nat.le_refl _
  | cons item items ih =>
      simp only [List.flatMap_cons, List.length_append]
      omega

theorem flatMap_append_eq_iff {α β : Type} (first second : α → List β) (items : List α) :
    (items.flatMap fun item => first item ++ second item) = items.flatMap first ↔
      ∀ item ∈ items, second item = [] := by
  induction items with
  | nil => simp
  | cons item items ih =>
      rw [List.flatMap_cons, List.flatMap_cons, List.append_assoc, List.append_cancel_left_eq,
        List.forall_mem_cons]
      constructor
      · intro heq
        -- Nothing gets lost in the rest, so what is inserted here would make the list longer.
        have hlength := congrArg List.length heq
        have hle := length_flatMap_le_append first second items
        rw [List.length_append] at hlength
        have hnil : second item = [] := List.length_eq_zero_iff.mp (by omega)
        rw [hnil, List.nil_append] at heq
        exact ⟨hnil, ih.mp heq⟩
      · rintro ⟨hnil, hrest⟩
        rw [hnil, List.nil_append, ih.mpr hrest]

def Lineage.memberNames : Lineage → List String
  | top _ => []
  | member entity parent =>
      if entity.kind = .member then parent.memberNames ++ [entity.name] else []

theorem Namespace.exists_of_mem_memberNames {space : Namespace} (id : space.Id) :
    ∀ name ∈ (space.lineage id).memberNames, ∃ entity ∈ space.entities, entity.name = name := by
  fun_induction Namespace.lineage space id with
  | case1 id hparent => exact List.forall_mem_nil _
  | case2 id owner hparent ih =>
      rw [Lineage.memberNames]
      split
      · refine List.forall_mem_append.mpr ⟨ih, List.forall_mem_singleton.mpr ?_⟩
        exact ⟨_, Array.getElem_mem id.isLt, rfl⟩
      · exact List.forall_mem_nil _

namespace Repository.Ref

variable {repo : Repository} {ref : repo.Ref} {owner : (repo.space ref.space).Id}

theorem memberNames_top (h : (repo.space ref.space).parent? ref.id = none) :
    ref.lineage.memberNames = [] := by
  rw [lineage, Namespace.lineage_top h, Lineage.memberNames]

theorem memberNames_member (h : (repo.space ref.space).parent? ref.id = some owner) :
    ref.lineage.memberNames =
      if ref.kind = .member then
        (⟨ref.space, owner⟩ : repo.Ref).lineage.memberNames ++ [ref.entity.name]
      else [] := by
  rw [lineage, Namespace.lineage_member h, Lineage.memberNames]
  rfl

theorem memberNames_eq_nil_iff :
    ref.lineage.memberNames = [] ↔ ref.kind = .member → ref.parent? = none := by
  cases hparent : (repo.space ref.space).parent? ref.id with
  | none => simp [memberNames_top hparent, parent?, hparent]
  | some owner => simp [memberNames_member hparent, parent?, hparent]

end Repository.Ref

namespace LinkStyle

variable {repo : Repository} {style : LinkStyle repo}

theorem names_target (ref : repo.Ref) :
    (style.target ref).2 =
      if style.suffixesMembers ref then ref.lineage.memberNames else [] := by
  fun_induction LinkStyle.target style ref with
  | case1 ref hparent => rw [Repository.Ref.memberNames_top hparent, ite_self]
  | case2 ref owner hparent hmember linked names htarget ih =>
      have hsame : style.suffixesMembers ⟨ref.space, owner⟩ = style.suffixesMembers ref := rfl
      rw [htarget, hsame, if_pos hmember.2] at ih
      rw [if_pos hmember.2, Repository.Ref.memberNames_member hparent, if_pos hmember.1, ← ih]
  | case3 ref owner hparent hmember =>
      rw [Repository.Ref.memberNames_member hparent]
      by_cases hkind : ref.kind = .member
      · rw [if_neg fun hsuffixes => hmember ⟨hkind, hsuffixes⟩]
      · rw [if_neg hkind, ite_self]

/-- What follows the link to an entity: the names of members that are shown with their owner. -/
def suffix (style : LinkStyle repo) (ref : repo.Ref) : List Char :=
  if style.suffixesMembers ref then
    ref.lineage.memberNames.flatMap fun name => '.' :: name.toList
  else []

theorem suffix_eq_nil_iff {ref : repo.Ref} :
    style.suffix ref = [] ↔
      (ref.kind = .member → style.suffixesMembers ref = true → ref.parent? = none) := by
  rw [suffix, imp.swap, ← Repository.Ref.memberNames_eq_nil_iff]
  split
  · next hsuffixes =>
      cases ref.lineage.memberNames <;> simp [hsuffixes]
  · next hnone => simp [hnone]

theorem write_names (ref : repo.Ref) :
    ((style.target ref).2.map fun name => Chunk.text ("." ++ name)).flatMap Chunk.write =
      style.suffix ref := by
  rw [names_target, List.flatMap_map, suffix]
  split
  · refine List.flatMap_congr fun name _ => ?_
    simp [Chunk.write]
  · rfl

theorem chunks_link (ref : repo.Ref) {word : String} (hword : word ≠ "") :
    ∃ attributes, PlainKeys attributes ∧ (style.link (some ref) (some word) false).chunks =
      [.openTag "link" attributes, .text word, .closeTag "link"] := by
  have htext : (some word).filter (· ≠ "") = some word := by simp [hword]
  simp only [link, htext]
  split
  · exact ⟨_, plainKeys_singleton (by decide) _, rfl⟩
  · exact ⟨_, plainKeys_singleton (by decide) _, rfl⟩

end LinkStyle

namespace Renderer

variable {repo : Repository} {renderer : Renderer repo}

def suffix (renderer : Renderer repo) (fragment : Text.Fragment × String) : List Char :=
  ((wordRef? fragment).map renderer.style.suffix).getD []

theorem suffix_eq_nil_iff {fragment : Text.Fragment × String} :
    renderer.suffix fragment = [] ↔
      ∀ ref ∈ wordRef? fragment, ref.kind = .member →
        renderer.style.suffixesMembers ref = true → ref.parent? = none := by
  rw [suffix]
  cases wordRef? fragment with
  | none => simp
  | some ref => simpa using renderer.style.suffix_eq_nil_iff

section

variable (hnames : ∀ space ∈ repo.namespaces, ∀ entity ∈ space.entities,
  Text.Unmarked entity.name)

include hnames

theorem unmarked_names_target (style : LinkStyle repo) (ref : repo.Ref) :
    ∀ name ∈ (style.target ref).2, Text.Unmarked name := by
  intro name hmem
  rw [LinkStyle.names_target] at hmem
  split at hmem
  · obtain ⟨entity, hentity, rfl⟩ := Namespace.exists_of_mem_memberNames ref.id name hmem
    exact hnames _ (List.getElem_mem _) entity hentity
  · cases hmem

theorem shown_link (ref : repo.Ref) {word : String} (hword : word ≠ "")
    (hplain : Text.Unmarked word) :
    CleanAll (renderer.link (some ref) (some word) false).chunks ∧
      ((renderer.link (some ref) (some word) false).chunks.filter
        fun chunk => !chunk.isTagOf "link").flatMap Chunk.write =
          word.toList ++ renderer.style.suffix ref := by
  obtain ⟨attributes, hkeys, hchunks⟩ :=
    renderer.style.chunks_link (renderer.style.target ref).1 hword
  have hlink : (renderer.link (some ref) (some word) false).chunks =
      [.openTag "link" attributes, .text word, .closeTag "link"] ++
        (renderer.style.target ref).2.map fun name => .text ("." ++ name) := by
    rw [← hchunks]
    rfl
  have htexts : ((renderer.style.target ref).2.map fun name => Chunk.text ("." ++ name)).filter
      (fun chunk => !chunk.isTagOf "link") =
        (renderer.style.target ref).2.map fun name => .text ("." ++ name) := by
    rw [List.filter_eq_self]
    intro chunk hmem
    obtain ⟨name, -, rfl⟩ := List.mem_map.mp hmem
    rfl
  rw [hlink]
  constructor
  · have hname : PlainName "link" := by decide
    refine .append (.cons ⟨hname, hkeys⟩ (.cons hplain (.cons hname .nil))) ?_
    intro chunk hmem
    obtain ⟨name, hname, rfl⟩ := List.mem_map.mp hmem
    have hplain := unmarked_names_target hnames renderer.style ref name hname
    exact Text.Unmarked.append (by decide) hplain
  · rw [List.filter_append, htexts, List.flatMap_append, LinkStyle.write_names]
    congr 1
    simp [Chunk.isTagOf, Chunk.tags, Tag.element?, Chunk.write]

theorem shown_word {text : String} {fragment : Text.Fragment × String}
    (hmem : fragment ∈ Text.Fragment.split (Text.escape text)) :
    CleanAll (renderer.word fragment).chunks ∧
      ((renderer.word fragment).chunks.filter
        fun chunk => !chunk.isTagOf "link").flatMap Chunk.write =
          fragment.2.toList ++ renderer.suffix fragment := by
  have hplain := Text.Fragment.unmarked_of_mem_split (.escape text) hmem
  have hpiece := Text.Fragment.ne_empty_of_mem_split hmem
  have hmarkup : CleanAll (Output.ofMarkup fragment.2).chunks ∧
      ((Output.ofMarkup fragment.2).chunks.filter
        fun chunk => !chunk.isTagOf "link").flatMap Chunk.write = fragment.2.toList := by
    refine ⟨.cons hplain .nil, ?_⟩
    simp [Output.ofMarkup, Output.ofChunks, Chunk.isTagOf, Chunk.tags, Chunk.write]
  obtain ⟨fragment, piece⟩ := fragment
  cases fragment with
  | word =>
      cases href : repo.entityOfWord? piece with
      | none => simpa [word, suffix, wordRef?, href] using hmarkup
      | some ref => simpa [word, suffix, wordRef?, href] using shown_link hnames ref hpiece hplain
  | _ => simpa [word, suffix, wordRef?] using hmarkup

theorem withoutTags_plainText_eq (hlinks : renderer.implicitLinks = true) (text : String) :
    (withoutTags "link" (renderer.plainText text).markup).toList =
      (Text.Fragment.split (Text.escape text)).flatMap
        fun fragment => fragment.2.toList ++ renderer.suffix fragment := by
  rw [plainText, if_pos hlinks, Output.markup, chunks_join, List.flatMap_map, withoutTags_write,
    List.filter_flatMap, List.flatMap_assoc]
  · exact List.flatMap_congr fun fragment hmem => (shown_word hnames hmem).2
  · exact .flatMap fun fragment hmem => (shown_word hnames hmem).1

end

/-- Without the tags of the links that are made for words, plain text is the escaped text, with the
names of members behind the words that are shown with the owner of a member. So it is the escaped
text just if no word names such a member. -/
theorem withoutTags_plainText (hlinks : renderer.implicitLinks = true)
    (hnames : ∀ space ∈ repo.namespaces, ∀ entity ∈ space.entities, Text.Unmarked entity.name)
    (text : String) :
    (Text.Fragment.split (Text.escape text)).flatMap (fun fragment => fragment.2.toList) =
        (Text.escape text).toList ∧
      (withoutTags "link" (renderer.plainText text).markup).toList =
        (Text.Fragment.split (Text.escape text)).flatMap
          (fun fragment => fragment.2.toList ++ renderer.suffix fragment) ∧
      (withoutTags "link" (renderer.plainText text).markup = Text.escape text ↔
        ∀ fragment ∈ Text.Fragment.split (Text.escape text), ∀ ref ∈ wordRef? fragment,
          ref.kind = .member → renderer.style.suffixesMembers ref = true → ref.parent? = none) := by
  have hwhole := Text.Fragment.flatMap_split (Text.escape text)
  have hshown := withoutTags_plainText_eq hnames hlinks text
  refine ⟨hwhole, hshown, ?_⟩
  rw [← String.toList_inj, hshown, ← hwhole, flatMap_append_eq_iff]
  exact forall₂_congr fun _ _ => suffix_eq_nil_iff

def aligning : Repository :=
  .ofDecl {
    space := {
      name := "Gtk"
      version := "3.0"
      identifierPrefixes := ["Gtk"]
      symbolPrefixes := ["gtk"]
      entities := [
        { name := "Align"
          kind := .enumeration
          children := [{ name := "fill", symbol := some "GTK_ALIGN_FILL", kind := .member }] }] } }

def linking : Renderer aligning :=
  { grammar := Renderer.bare.grammar, style := { language := .c }, implicitLinks := true }

theorem withoutTags_plainText_linking :
    linking.implicitLinks = true ∧
      (∀ space ∈ aligning.namespaces, ∀ entity ∈ space.entities, Text.Unmarked entity.name) ∧
      withoutTags "link" (linking.plainText "a <GtkAlign> (or GtkAlign)").markup =
        Text.escape "a <GtkAlign> (or GtkAlign)" := by
  have hnames : ∀ space ∈ aligning.namespaces, ∀ entity ∈ space.entities,
      Text.Unmarked entity.name := by decide +kernel
  refine ⟨rfl, hnames, (withoutTags_plainText rfl hnames _).2.2.mpr ?_⟩
  decide +kernel

/-- The name of a member follows the link that its symbol becomes. -/
theorem not_withoutTags_member :
    linking.implicitLinks = true ∧
      (∀ space ∈ aligning.namespaces, ∀ entity ∈ space.entities, Text.Unmarked entity.name) ∧
      (linking.plainText "GTK_ALIGN_FILL").markup =
        "<link xref=\"Gtk.Align\">GTK_ALIGN_FILL</link>.fill" ∧
      withoutTags "link" (linking.plainText "GTK_ALIGN_FILL").markup ≠
        Text.escape "GTK_ALIGN_FILL" := by
  refine ⟨rfl, ?_, ?_, ?_⟩ <;> decide +kernel

end Renderer

end DocMarkup
