import DocMarkup.Proofs.Comment.Neighbours
import DocMarkup.Proofs.Render.Trace
import DocMarkup.Proofs.Repository.Readings

/-!
References to types in the plural.

A type name goes on to the end of the word, so the letter of the plural is part of it. Only if
nothing is found by the whole name the letter is dropped, and then it is put behind the text of
the link and nowhere else.
-/

namespace DocMarkup

namespace Comment

open Construct (IsWord IsWordChar)

variable {grammar : Grammar} {name text : String} {before after : List Token} {token : Token}

theorem readable_typeName {name : List Char} (h : IsWord name) :
    Readable (ConstructKind.runs .typeName) ('#' :: name) := by
  have hname : (Run.word "type_name_type_name").Admits (String.ofList name).toList := by
    rw [String.toList_ofList]
    exact ⟨fun char hmem => contains_wordChar_of_isWordChar (h.2 char hmem), h.1⟩
  refine ⟨'#' :: name, [("type_name_type_name", String.ofList name)], [], ?_, by simp⟩
  simp only [ConstructKind.runs, Run.word, reading_sign_iff, reading_group_iff, reading_nil_iff]
  exact ⟨name, rfl, _, hname, [], by simp, [], rfl, rfl, rfl⟩

theorem text_ne_nil (h : token ∈ tokens grammar text) : token.text.toList ≠ [] := by
  obtain ⟨matched, hmatched, rfl⟩ := List.mem_map.mp h
  obtain ⟨first, last, hcovers⟩ := (Grammar.scan_reach grammar text).covers matched hmatched
  rw [hcovers.text_eq, String.toList_ofList]
  exact Grammar.piece_ne_nil hcovers.lt hcovers.le

theorem tokens_ne_nil (h : text.toList ≠ []) : tokens grammar text ≠ [] := by
  have hreach := Grammar.scan_reach grammar text
  rw [tokens, Ne, List.map_eq_nil_iff]
  intro hnil
  rw [hnil] at hreach
  exact h (List.length_eq_zero_iff.mp (Eq.symm hreach))

theorem written_of_mem_tokens (hgrammar : IsGrammar grammar) (h : token ∈ tokens grammar text)
    (hother : token.construct ≠ .other) : token.construct.Written token.text.toList := by
  obtain ⟨matched, hmatched, rfl⟩ := List.mem_map.mp h
  have haccounts := accounts_of_mem_scan hgrammar hmatched
  generalize constructOf matched = construct at haccounts hother
  cases haccounts with
  | other => exact absurd rfl hother
  | construct _ _ hwritten => exact hwritten

theorem not_isBlank_of_isWordChar {char : Char} (h : IsWordChar char) :
    Text.isBlank char = false := by
  have hcode : 0x30 ≤ char.toNat ∧ char.toNat ≤ 0x7A := by
    rcases h with halphanum | rfl
    · have hranges : (decide ('A' ≤ char ∧ char ≤ 'Z') ||
          (decide ('a' ≤ char) && decide (char ≤ 'z')) ||
          (decide ('0' ≤ char) && decide (char ≤ '9'))) = true := halphanum
      simp only [Char.le_def, UInt32.le_iff_toNat_le, Bool.or_eq_true, Bool.and_eq_true,
        decide_eq_true_eq] at hranges
      have hcode : char.toNat = char.val.toNat := rfl
      have hbounds : ('A'.val.toNat, 'Z'.val.toNat, 'a'.val.toNat, 'z'.val.toNat, '0'.val.toNat,
          '9'.val.toNat) = (0x41, 0x5A, 0x61, 0x7A, 0x30, 0x39) := by decide
      simp only [Prod.mk.injEq] at hbounds
      omega
    · decide
  unfold Text.isBlank
  simp only [Bool.or_eq_false_iff, Bool.and_eq_false_iff, decide_eq_false_iff_not,
    beq_eq_false_iff_ne]
  omega

theorem eq_typeName_of_written {construct : Construct} {chars name rest : List Char}
    (h : construct.Written chars) (hname : IsWord name) (hchars : '#' :: name = chars ++ rest) :
    ∃ word : String, construct = .typeName word ∧ chars = '#' :: word.toList := by
  have hword (char : Char) (hmem : char ∈ chars) : char = '#' ∨ IsWordChar char := by
    have hall : char ∈ '#' :: name := hchars ▸ List.mem_append_left _ hmem
    exact (List.mem_cons.mp hall).imp_right (hname.2 char)
  have hsign (char : Char) (hmem : char ∈ chars)
      (hother : ¬ (char = '#' ∨ char.isAlphanum = true ∨ char = '_')) :
      ∃ word : String, construct = .typeName word ∧ chars = '#' :: word.toList :=
    absurd (hword char hmem) hother
  cases h with
  | typeName hname => exact ⟨_, rfl, rfl⟩
  | heading hlevel hne hblanks =>
      obtain ⟨blank, hblank⟩ := List.exists_mem_of_ne_nil _ hne
      have hisBlank := hblanks blank hblank
      rcases hword blank (by simp [hblank]) with rfl | hblankWord
      · cases hisBlank
      · rw [not_isBlank_of_isWordChar hblankWord] at hisBlank
        cases hisBlank
  | note => exact hsign '>' (by simp) (by decide)
  | newParagraph | newLine => exact hsign '\n' (by simp) (by decide)
  | codeStart | codeStartWithLanguage | codeEnd => exact hsign '|' (by simp) (by decide)
  | property | signal => exact hsign ':' (by simp) (by decide)
  | enumValue => exact hsign '%' (by simp) (by decide)
  | parameter => exact hsign '@' (by simp) (by decide)
  | functionCall => exact hsign '(' (by simp) (by decide)
  | inclusion => exact hsign '\x7b' (by simp) (by decide)

theorem typeName_first (hgrammar : IsGrammar grammar) (hname : IsWord name.toList)
    {after : List Token} (htokens : tokens grammar ("#" ++ name) = token :: after) :
    ∃ word : String, token.construct = .typeName word ∧
      token.text.toList = '#' :: word.toList ∧ name.toList = word.toList ++ charsOf after := by
  have hfirst : tokens grammar ("#" ++ name) = [] ++ token :: after := htokens
  obtain ⟨htext, hmet⟩ := met_of_tokens hgrammar hfirst
  have hchars : '#' :: name.toList = token.text.toList ++ charsOf after := by
    rw [String.toList_append] at htext
    exact htext
  have hmem : token ∈ tokens grammar ("#" ++ name) := htokens ▸ List.mem_cons_self
  have hother : token.construct ≠ .other := by
    intro hother
    have hnot : ¬ Readable (ConstructKind.runs .typeName) (token.text.toList ++ charsOf after) :=
      hmet.not_readable hother (List.nil_append _).symm (text_ne_nil hmem)
    rw [← hchars] at hnot
    exact hnot (readable_typeName hname)
  obtain ⟨word, hconstruct, htoken⟩ :=
    eq_typeName_of_written (written_of_mem_tokens hgrammar hmem hother) hname hchars
  rw [htoken, List.cons_append, List.cons.injEq] at hchars
  exact ⟨word, hconstruct, htoken, hchars.2⟩

/-- A comment of a type name and nothing else is one token. -/
theorem tokens_typeName (hgrammar : IsGrammar grammar) (hname : IsWord name.toList) :
    tokens grammar ("#" ++ name) = [⟨.typeName name, "#" ++ name⟩] := by
  have hne : tokens grammar ("#" ++ name) ≠ [] := tokens_ne_nil (by simp)
  obtain ⟨token, after, htokens⟩ := List.exists_cons_of_ne_nil hne
  obtain ⟨word, hconstruct, htoken, hsplit⟩ := typeName_first hgrammar hname htokens
  have hend : charsOf after = [] := by
    by_contra hafter
    obtain ⟨char, rest, hrest⟩ := List.exists_cons_of_ne_nil hafter
    have hkind : token.construct.kind? = some .typeName := by
      rw [hconstruct]
      rfl
    have hfirst : tokens grammar ("#" ++ name) = [] ++ token :: after := htokens
    obtain ⟨-, hmet⟩ := met_of_tokens hgrammar hfirst
    refine hmet.not_wordChar_next hkind rfl hrest (hname.2 char ?_)
    rw [hsplit, hrest]
    exact List.mem_append_right _ List.mem_cons_self
  have hafter : after = [] := by
    refine List.eq_nil_iff_forall_not_mem.mpr fun other hother => ?_
    refine text_ne_nil (htokens ▸ List.mem_cons_of_mem _ hother) ?_
    exact List.flatMap_eq_nil_iff.mp hend other hother
  rw [hend, List.append_nil] at hsplit
  obtain rfl : name = word := String.toList_inj.mp hsplit
  have htext : token.text = "#" ++ name := by
    rw [← String.toList_inj, htoken, String.toList_append]
    rfl
  obtain ⟨construct, text⟩ := token
  simp only at hconstruct htext
  rw [htokens, hafter, hconstruct, htext]

end Comment

namespace LinkStyle

variable {repo : Repository} (style : LinkStyle repo)

theorem target_of_entityOfType? {identifier : String} {ref : repo.Ref}
    (h : repo.entityOfType? identifier = some ref) : style.target ref = (ref, []) := by
  obtain ⟨candidate, -, hget⟩ := List.exists_of_findSome?_eq_some h
  have htop : ref.parent? = none := (Repository.get?_eq_some_iff_lastIn.mp hget).holds.1
  have hparent : (repo.space ref.space).parent? ref.id = none := Option.map_eq_none_iff.mp htop
  rw [target]
  split
  · rfl
  · next owner howner =>
      rw [hparent] at howner
      cases howner

theorem rendered_of_entityOfType? {identifier : String} {ref : repo.Ref}
    (h : repo.entityOfType? identifier = some ref) (text : Option String) (plural : Bool) :
    style.rendered (some ref) text plural = (style.link (some ref) text plural).chunks := by
  rw [rendered, style.target_of_entityOfType? h]
  exact List.append_nil _

theorem link_plural (ref : repo.Ref) :
    (style.link (some ref) none true).attributes = (style.link (some ref) none false).attributes ∧
      (style.link (some ref) none true).text =
        some ((style.link (some ref) none false).text.getD ref.pageId ++ "s") := by
  cases hdocumented : ref.isDocumented <;>
    simp [link, hdocumented, Link.toPage, Link.toAddress]

theorem isDocumented_of_text (ref : repo.Ref)
    (h : (style.link (some ref) none false).text = none) : ref.isDocumented = true := by
  by_contra hdocumented
  simp [link, hdocumented, Link.toAddress] at h

end LinkStyle

namespace Renderer

variable {repo : Repository} {renderer : Renderer repo} {owner : Option repo.Ref}

theorem dropPluralChars?_append (chars : List Char) :
    dropPluralChars? (chars ++ ['s']) = some chars := by
  induction chars with
  | nil => rfl
  | cons char chars ih =>
      rw [List.cons_append, dropPluralChars?, ih, Option.map_some]
      simp

theorem dropPlural?_append (name : String) : dropPlural? (name ++ "s") = some name := by
  have hchars : (name ++ "s").toList = name.toList ++ ['s'] := by simp
  rw [dropPlural?, hchars, dropPluralChars?_append, Option.map_some, String.ofList_toList]

theorem typeLink?_plural {name : String} (h : repo.entityOfType? (name ++ "s") = none) :
    renderer.typeLink? (name ++ "s") =
      (repo.entityOfType? name).map fun ref => renderer.link (some ref) none true := by
  rw [typeLink?, h, dropPlural?_append]
  cases hname : repo.entityOfType? name <;> simp [hname]

theorem walk_token {document tokens : List Comment.Token} {state after : RenderState}
    {token : Comment.Token} {output : Output}
    (reachable : ∀ token ∈ tokens, token ∈ renderer.reachable document)
    (htokens : tokens = [token])
    (hrendered : renderer.renderToken owner state token = .finished output after) :
    renderer.walk owner document state tokens reachable =
      ([⟨state, token, output, after⟩], after) := by
  subst htokens
  rw [walk]
  split
  · next h =>
      cases hrendered.symm.trans h
      rw [walk]
  · next h => cases hrendered.symm.trans h

theorem markup_of_token {text : String} {token : Comment.Token} {output : Output}
    (htokens : renderer.tokens text = [token])
    (hrendered : renderer.renderToken owner {} token = .finished output {}) :
    (renderer.comment owner (some text)).markup = "<p>" ++ output.markup ++ "</p>" := by
  have htrace : renderer.trace owner {} text = ([⟨{}, token, output, {}⟩], {}) :=
    walk_token _ htokens hrendered
  have hsteps : renderer.steps owner {} text = [⟨{}, token, output, {}⟩] := by
    rw [steps, htrace]
  have hlast : (renderer.inline owner {} text).2 = {} := by
    rw [inline, htrace]
  have hopen : (documentStart {}).flatMap Page.Chunk.write = "<p>".toList := by decide
  have hclose : (documentEnd {} {}).flatMap Page.Chunk.write = "</p>".toList := by decide
  show Page.write (renderer.document owner {} text).1.chunks = _
  rw [chunks_document, hsteps, hlast, outputOf, List.flatMap_singleton, ← String.toList_inj,
    Page.toList_write, List.flatMap_append, List.flatMap_append, hopen, hclose,
    String.toList_append, String.toList_append, Output.markup, Page.toList_write]

theorem comment_typeName (hgrammar : Comment.IsGrammar renderer.grammar) {name : String}
    (hname : Construct.IsWord name.toList) {output : Output}
    (h : renderer.typeLink? name = some output) :
    (renderer.comment owner (some ("#" ++ name))).markup = "<p>" ++ output.markup ++ "</p>" := by
  refine markup_of_token (Comment.tokens_typeName hgrammar hname) ?_
  show Rendering.reference {} ("#" ++ name) (renderer.typeLink? name) = _
  rw [h]
  rfl

theorem link_markup {identifier : String} {ref : repo.Ref}
    (h : repo.entityOfType? identifier = some ref) (plural : Bool) :
    (renderer.link (some ref) none plural).markup =
      (renderer.style.link (some ref) none plural).markup := by
  rw [Output.markup, link, renderer.style.rendered_of_entityOfType? h, Link.markup]

/-- A type name that is found is linked as it is. If it is not found with the letter of the
plural but without it, the link is that of the type without it, and the letter stands behind the
text of the link, or behind the id of the page if the link has no text. -/
theorem comment_plural (hgrammar : Comment.IsGrammar renderer.grammar)
    (owner : Option repo.Ref) {name : String} (hname : Construct.IsWord name.toList) :
    (∀ ref, repo.entityOfType? (name ++ "s") = some ref →
      (renderer.comment owner (some ("#" ++ name ++ "s"))).markup =
        "<p>" ++ (renderer.style.link (some ref) none false).markup ++ "</p>") ∧
    (repo.entityOfType? (name ++ "s") = none → ∀ ref, repo.entityOfType? name = some ref →
      ∃ link plural : Link, link = renderer.style.link (some ref) none false ∧
        (renderer.comment owner (some ("#" ++ name))).markup = "<p>" ++ link.markup ++ "</p>" ∧
        (renderer.comment owner (some ("#" ++ name ++ "s"))).markup =
          "<p>" ++ plural.markup ++ "</p>" ∧
        plural.attributes = link.attributes ∧
        plural.text = some (link.text.getD ref.pageId ++ "s") ∧
        (link.text = none → ref.isDocumented = true)) := by
  have hplural : Construct.IsWord (name ++ "s").toList := by
    rw [String.toList_append]
    refine ⟨List.append_ne_nil_of_left_ne_nil hname.1 _, ?_⟩
    exact List.forall_mem_append.mpr ⟨hname.2, by simp⟩
  rw [String.append_assoc]
  constructor
  · intro ref href
    have hlink : renderer.typeLink? (name ++ "s") = some (renderer.link (some ref) none false) := by
      rw [typeLink?, href]
    rw [comment_typeName hgrammar hplural hlink, link_markup href]
  · intro hnone ref href
    have hlink : renderer.typeLink? name = some (renderer.link (some ref) none false) := by
      rw [typeLink?, href]
    have hlinks : renderer.typeLink? (name ++ "s") =
        some (renderer.link (some ref) none true) := by
      rw [typeLink?_plural hnone, href, Option.map_some]
    obtain ⟨hattributes, htext⟩ := renderer.style.link_plural ref
    refine ⟨_, renderer.style.link (some ref) none true, rfl, ?_, ?_, hattributes, htext,
      renderer.style.isDocumented_of_text ref⟩
    · rw [comment_typeName hgrammar hname hlink, link_markup href]
    · rw [comment_typeName hgrammar hplural hlinks, link_markup href]

end Renderer

def Repository.shelves : Repository :=
  .ofDecl {
    space := {
      name := "Gtk"
      version := "3.0"
      entities := [{ name := "Box", kind := .record }, { name := "Glass", kind := .record }] } }

def Renderer.shelves : Renderer .shelves where
  grammar := Renderer.bare.grammar
  style := { language := .c }

theorem Renderer.comment_plural_shelves :
    Comment.IsGrammar shelves.grammar ∧ Construct.IsWord "Box".toList ∧
      Construct.IsWord "Glas".toList ∧ Repository.shelves.entityOfType? "Boxs" = none ∧
      (shelves.comment none (some "#Boxs")).markup =
        "<p><link xref=\"Gtk.Box\">Gtk.Boxs</link></p>" ∧
      (shelves.comment none (some "#Glass")).markup = "<p><link xref=\"Gtk.Glass\"/></p>" := by
  have hgrammar : Comment.IsGrammar shelves.grammar := isGrammar_bare
  have hbox : Construct.IsWord "Box".toList := by simp [Construct.IsWord]
  have hglas : Construct.IsWord "Glas".toList := by simp [Construct.IsWord]
  have hnone : Repository.shelves.entityOfType? "Boxs" = none := by decide +kernel
  refine ⟨hgrammar, hbox, hglas, hnone, ?_, ?_⟩
  · obtain ⟨link, ⟨attributes, text⟩, rfl, -, hmarkup, hattributes, htext, -⟩ :=
      (comment_plural hgrammar none hbox).2 hnone ⟨⟨0, by decide⟩, ⟨0, by decide⟩⟩
        (by decide +kernel)
    simp only at hattributes htext
    rw [hattributes, htext] at hmarkup
    exact hmarkup.trans (by decide +kernel)
  · have hmarkup := (comment_plural hgrammar none hglas).1 ⟨⟨0, by decide⟩, ⟨1, by decide⟩⟩
      (by decide +kernel)
    exact hmarkup.trans (by decide +kernel)

end DocMarkup
