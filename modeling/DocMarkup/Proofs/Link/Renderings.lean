import DocMarkup.Link.Style
import DocMarkup.Proofs.Link.Characters
import DocMarkup.Proofs.Text.Escaping

/-!
The two renderings of a link.

A link becomes markup at once, which takes its text as it is, or an element, which is escaped when
it is written. Both come to the same just if nothing in the text is left to escape. Of the texts
that links have without being given one, plural page ids and the titles of foreign pages, only the
arrows of fields are to be escaped, unless the names in the repository have special characters.
-/

namespace DocMarkup

open Text (Escaped)

theorem Text.escape_eq_self_iff {text : String} : escape text = text ↔ Escaped text.toList := by
  rw [← String.toList_inj, toList_escape, escapeChars_eq_self_iff]

theorem Text.escaped_append_plural {text : String} :
    Escaped (text ++ "s").toList ↔ Escaped text.toList := by
  rw [String.toList_append]
  constructor
  · intro h
    refine ⟨fun hmem => h.less (List.mem_append_left _ hmem),
      fun hmem => h.greater (List.mem_append_left _ hmem), fun before after heq => ?_⟩
    obtain ⟨body, rest, hafter, hbody⟩ := h.references before (after ++ ['s']) (by simp [heq])
    rcases List.eq_nil_or_concat rest with rfl | ⟨rest, last, rfl⟩
    · exact absurd (List.append_inj' hafter rfl).2 (by decide)
    · rw [List.concat_eq_append, ← List.cons_append, ← List.append_assoc] at hafter
      exact ⟨body, rest, (List.append_inj' hafter rfl).1, hbody⟩
  · intro h
    refine ⟨?_, ?_, fun before after heq => ?_⟩
    · exact List.not_mem_append h.less (by decide)
    · exact List.not_mem_append h.greater (by decide)
    · rcases List.eq_nil_or_concat after with rfl | ⟨after, last, rfl⟩
      · exact absurd (List.append_inj' heq rfl).2 (by decide)
      · rw [List.concat_eq_append, ← List.cons_append, ← List.append_assoc] at heq
        obtain ⟨body, rest, rfl, hbody⟩ := h.references before after (List.append_inj' heq rfl).1
        exact ⟨body, rest ++ [last], by simp, hbody⟩

namespace Link

def RendersAlike (link : Link) : Prop :=
  link.markup = link.element.markup

instance (link : Link) : Decidable link.RendersAlike :=
  inferInstanceAs (Decidable (_ = _))

theorem rendersAlike_iff {link : Link} :
    link.RendersAlike ↔ ∀ shown, link.text = some shown → Escaped shown.toList := by
  obtain ⟨attributes, text⟩ := link
  cases text with
  | none => exact ⟨fun _ _ hshown => (nomatch hshown), fun _ => rfl⟩
  | some shown =>
      have hbetween : (Link.mk attributes (some shown)).RendersAlike ↔
          Text.escape shown = shown := by
        rw [RendersAlike, ← String.toList_inj, ← String.toList_inj]
        simp [markup, element, chunks, Page.Chunk.tag, Page.Element.markup, Page.Element.chunks,
          Page.Element.childChunks, Page.Element.escapedText, Page.Chunk.write, eq_comm]
      rw [hbetween, Text.escape_eq_self_iff]
      exact ⟨fun h _ heq => Option.some.inj heq ▸ h, fun h => h shown rfl⟩

end Link

abbrev Text.Plain (char : Char) : Prop :=
  char ≠ '&' ∧ char ≠ '<' ∧ char ≠ '>'

theorem signs_plain : Signs Text.Plain :=
  (signs_ne (by decide) (by decide)).and
    ((signs_ne (by decide) (by decide)).and (signs_ne (by decide) (by decide)))

theorem Text.Within.escaped {text : String} (h : Text.Within Text.Plain text) :
    Escaped text.toList := by
  have hescaped := Text.escaped_nil.append_plain h
  rwa [List.append_nil] at hescaped

namespace LinkStyle

variable {repo : Repository} {style : LinkStyle repo} {text : Option String} {plural : Bool}

def ownText? (style : LinkStyle repo) (plural : Bool) (ref : repo.Ref) : Option String :=
  if ref.isDocumented then if plural then some (ref.pageId ++ "s") else none
  else some (if plural then style.language.pageTitle ref ++ "s" else style.language.pageTitle ref)

theorem text_link (ref : Option repo.Ref) :
    (style.link ref text plural).text =
      (text.filter (· ≠ "")).or (ref.bind (style.ownText? plural)) := by
  cases ref with
  | none => exact (Option.or_none).symm
  | some ref =>
      simp only [link, Option.bind_some, ownText?]
      cases text.filter (· ≠ "") <;> cases ref.isDocumented <;> cases plural <;> rfl

theorem escaped_ownText?_iff (ref : repo.Ref) :
    (∀ shown, style.ownText? plural ref = some shown → Escaped shown.toList) ↔
      (ref.isDocumented = true → plural = true → Escaped ref.pageId.toList) ∧
        (ref.isDocumented = false → Escaped (style.language.pageTitle ref).toList) := by
  unfold ownText?
  cases ref.isDocumented <;> cases plural <;>
    simp [Text.escaped_append_plural, -String.toList_append]

theorem rendersAlike_link_iff (ref : Option repo.Ref)
    (htext : ∀ shown, text = some shown → Text.escape shown = shown) :
    (style.link ref text plural).RendersAlike ↔
      (text.getD "" = "" → ∀ linked, ref = some linked →
        ∀ shown, style.ownText? plural linked = some shown → Escaped shown.toList) := by
  rw [Link.rendersAlike_iff, text_link]
  by_cases hempty : text.getD "" = ""
  · have hfilter : text.filter (· ≠ "") = none := by
      cases text with
      | none => rfl
      | some given => simp [show given = "" from hempty]
    rw [hfilter, Option.none_or]
    simp only [Option.bind_eq_some_iff]
    exact ⟨fun h _ linked hlinked shown hshown => h shown ⟨linked, hlinked, hshown⟩,
      fun h shown ⟨linked, hlinked, hshown⟩ => h hempty linked hlinked shown hshown⟩
  · obtain ⟨given, rfl⟩ : ∃ given, text = some given := by
      cases text with
      | none => exact absurd rfl hempty
      | some given => exact ⟨given, rfl⟩
    have hfilter : (some given).filter (· ≠ "") = some given := by simp_all
    rw [hfilter, Option.some_or]
    refine ⟨fun _ h => absurd h hempty, fun _ shown hshown => ?_⟩
    exact Text.escape_eq_self_iff.mp (htext shown hshown)

theorem escaped_ownText?_plain_iff (h : repo.Within Text.Plain) (ref : repo.Ref) :
    (∀ shown, style.ownText? plural ref = some shown → Escaped shown.toList) ↔
      ¬ (ref.isDocumented = false ∧ style.language.Arrowed ref.lineage) := by
  rw [escaped_ownText?_iff]
  constructor
  · rintro ⟨-, htitle⟩ ⟨hforeign, harrow⟩
    exact (htitle hforeign).greater (Language.greater_mem_lineagePageTitle harrow _)
  · intro hplain
    refine ⟨fun _ _ => (h.pageId signs_plain ref).escaped, fun hforeign => ?_⟩
    have harrow : style.language.Arrowed ref.lineage → Text.Plain '>' :=
      fun harrow => absurd ⟨hforeign, harrow⟩ hplain
    exact (h.pageTitle signs_plain ref style.language harrow).escaped

/-- The two renderings of a link agree just if a text is given, or there is nothing to escape in
what it shows of its own. With plain names that is so unless it shows the arrow of a field. -/
theorem rendersAlike_link (style : LinkStyle repo) (ref : Option repo.Ref) (plural : Bool)
    (htext : ∀ shown, text = some shown → Text.escape shown = shown) :
    ((style.link ref text plural).RendersAlike ↔
      (text.getD "" = "" → ∀ linked, ref = some linked →
        (linked.isDocumented = true → plural = true → Escaped linked.pageId.toList) ∧
          (linked.isDocumented = false → Escaped (style.language.pageTitle linked).toList))) ∧
      (repo.Within Text.Plain → ((style.link ref text plural).RendersAlike ↔
        ¬ (text.getD "" = "" ∧ ∃ linked, ref = some linked ∧
          linked.isDocumented = false ∧ style.language.Arrowed linked.lineage))) := by
  rw [rendersAlike_link_iff ref htext]
  constructor
  · simp only [escaped_ownText?_iff]
  · intro hplain
    simp only [escaped_ownText?_plain_iff hplain]
    exact ⟨fun h ⟨hempty, linked, hlinked, harrow⟩ => h hempty linked hlinked harrow,
      fun h hempty linked hlinked harrow => h ⟨hempty, linked, hlinked, harrow⟩⟩

end LinkStyle

def Repository.boxing : Repository :=
  .ofDecl {
    space := { name := "Gtk", version := "3.0" }
    includes := [{
      name := "Foo"
      version := "1.0"
      entities := [
        { name := "Box", kind := .record, children := [{ name := "x", kind := .field }] }] }] }

namespace LinkStyle

open Repository (boxing)

theorem rendersAlike_link_boxing :
    boxing.Within Text.Plain ∧ Text.escape "x &gt; y" = "x &gt; y" ∧
      ∃ ref ∈ boxing.ref? 1 1,
        ((⟨.c, none⟩ : LinkStyle boxing).link (some ref) (some "x &gt; y") true).RendersAlike := by
  have hplain : boxing.Within Text.Plain := ⟨by decide +kernel, by decide +kernel⟩
  have htext : Text.escape "x &gt; y" = "x &gt; y" := by decide +kernel
  refine ⟨hplain, htext, ⟨⟨1, by decide⟩, ⟨1, by decide⟩⟩, rfl, ?_⟩
  refine ((rendersAlike_link _ _ _ fun _ hshown => ?_).2 hplain).mpr fun h => ?_
  · exact Option.some.inj hshown ▸ htext
  · exact absurd h.1 (by decide)

/-- The title of a foreign field has an arrow, which is escaped in an element only. -/
theorem not_rendersAlike_boxing :
    ∃ ref ∈ boxing.ref? 1 1,
      ((⟨.c, none⟩ : LinkStyle boxing).link (some ref) none false).markup =
        "<link href=\"../Foo-1.0/Foo.Box-x.html\">Foo.Box->x</link>" ∧
      ((⟨.c, none⟩ : LinkStyle boxing).link (some ref) none false).element.markup =
        "<link href=\"../Foo-1.0/Foo.Box-x.html\">Foo.Box-&gt;x</link>" ∧
      ¬ ((⟨.c, none⟩ : LinkStyle boxing).link (some ref) none false).RendersAlike := by
  refine ⟨⟨⟨1, by decide⟩, ⟨1, by decide⟩⟩, rfl, ?_, ?_, ?_⟩ <;> decide +kernel

end LinkStyle

end DocMarkup
