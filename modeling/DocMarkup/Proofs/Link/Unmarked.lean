import DocMarkup.Link.Style
import DocMarkup.Proofs.Link.Characters
import DocMarkup.Proofs.Page.Tags

/-!
Names without markup.

In a repository none of whose names starts a tag, neither do the ids and titles of its pages,
so whatever a link shows without escaping is text.
-/

namespace DocMarkup

def Text.Unmarked (text : String) : Prop :=
  '<' ∉ text.toList

instance (text : String) : Decidable (Text.Unmarked text) :=
  inferInstanceAs (Decidable (¬ _ ∈ _))

namespace Text.Unmarked

variable {first second : String}

theorem append (hfirst : Unmarked first) (hsecond : Unmarked second) :
    Unmarked (first ++ second) := by
  rw [Unmarked, String.toList_append]
  exact List.not_mem_append hfirst hsecond

theorem escape (text : String) : Unmarked (escape text) := by
  rw [Unmarked, toList_escape]
  exact (angle_not_mem_escapeChars text.toList).1

end Text.Unmarked

structure Entity.Unmarked (entity : Entity) : Prop where
  name : Text.Unmarked entity.name
  symbol : ∀ symbol, entity.symbol = some symbol → Text.Unmarked symbol
  shadows : ∀ name, entity.kind.shadows? = some name → Text.Unmarked name

structure Repository.Unmarked (repo : Repository) : Prop where
  spaces : ∀ space ∈ repo.namespaces, Text.Unmarked space.name
  entities : ∀ space ∈ repo.namespaces, ∀ entity ∈ space.entities, entity.Unmarked

theorem Text.unmarked_iff_within {text : String} : Unmarked text ↔ Within (· ≠ '<') text :=
  ⟨fun h _ hmem heq => h (heq ▸ hmem), fun h hmem => h _ hmem rfl⟩

theorem Entity.Unmarked.within {entity : Entity} (h : entity.Unmarked) :
    entity.Within (· ≠ '<') where
  name := Text.unmarked_iff_within.mp h.name
  symbol symbol hsymbol := Text.unmarked_iff_within.mp (h.symbol symbol hsymbol)
  shadows name hname := Text.unmarked_iff_within.mp (h.shadows name hname)

theorem Repository.Unmarked.within {repo : Repository} (h : repo.Unmarked) :
    repo.Within (· ≠ '<') where
  spaces space hspace := Text.unmarked_iff_within.mp (h.spaces space hspace)
  entities space hspace entity hentity := (h.entities space hspace entity hentity).within

namespace Link

open Page

structure Clean (link : Link) : Prop where
  keys : PlainKeys link.attributes
  text : ∀ shown, link.text = some shown → Text.Unmarked shown

theorem clean_toPage {page : String} {text : Option String}
    (h : ∀ shown, text = some shown → Text.Unmarked shown) : (toPage page text).Clean :=
  ⟨plainKeys_singleton (by decide) page, h⟩

theorem clean_toAddress {address text : String} (h : Text.Unmarked text) :
    (toAddress address text).Clean :=
  ⟨plainKeys_singleton (by decide) address, fun _ hshown => Option.some.inj hshown ▸ h⟩

theorem Clean.chunks {link : Link} (h : link.Clean) : CleanAll link.chunks := by
  have hname : PlainName "link" := by decide
  obtain ⟨attributes, text⟩ := link
  cases text with
  | none => exact .cons ⟨hname, h.keys⟩ .nil
  | some shown => exact .cons ⟨hname, h.keys⟩ (.cons (h.text shown rfl) (.cons hname .nil))

end Link

section

variable {repo : Repository}

namespace Repository.Unmarked

variable (h : repo.Unmarked) (ref : repo.Ref)

include h

theorem entity : ref.entity.Unmarked :=
  h.entities _ (List.getElem_mem _) _ (Array.getElem_mem _)

theorem pageId : Text.Unmarked ref.pageId :=
  Text.unmarked_iff_within.mpr (h.within.pageId (signs_ne (by decide) (by decide)) ref)

theorem pageTitle (language : Language) : Text.Unmarked (language.pageTitle ref) :=
  Text.unmarked_iff_within.mpr
    (h.within.pageTitle (signs_ne (by decide) (by decide)) ref language fun _ => by decide)

end Repository.Unmarked

namespace LinkStyle

open Page

variable {style : LinkStyle repo} {text : Option String} {plural : Bool}

theorem clean_link (h : repo.Unmarked) (ref : Option repo.Ref)
    (htext : ∀ shown, text = some shown → Text.Unmarked shown) :
    (style.link ref text plural).Clean := by
  have hfilter : ∀ shown, text.filter (· ≠ "") = some shown → Text.Unmarked shown :=
    fun shown hshown => htext shown (Option.filter_eq_some_iff.mp hshown).1
  unfold link
  cases ref with
  | none => exact Link.clean_toPage hfilter
  | some ref =>
      simp only
      split
      · apply Link.clean_toPage
        intro shown hshown
        cases hgiven : text.filter (· ≠ "") with
        | some given =>
            rw [hgiven] at hshown
            cases hshown
            exact hfilter shown hgiven
        | none =>
            rw [hgiven] at hshown
            cases plural with
            | false => cases hshown
            | true =>
                cases hshown
                exact (h.pageId ref).append (by decide)
      · apply Link.clean_toAddress
        cases hgiven : text.filter (· ≠ "") with
        | some given => exact hfilter given hgiven
        | none =>
            cases plural with
            | false => exact h.pageTitle ref style.language
            | true => exact (h.pageTitle ref style.language).append (by decide)

theorem unmarked_target (h : repo.Unmarked) (ref : repo.Ref) :
    ∀ name ∈ (style.target ref).2, Text.Unmarked name := by
  fun_induction LinkStyle.target style ref with
  | case1 ref hparent => exact fun _ hmem => nomatch hmem
  | case2 ref owner hparent hmember linked names htarget ih =>
      rw [htarget] at ih
      intro name hmem
      rcases List.mem_append.mp hmem with hmem | hmem
      · exact ih name hmem
      · rw [List.mem_singleton.mp hmem]
        exact (h.entity ref).name
  | case3 ref owner hparent hmember => exact fun _ hmem => nomatch hmem

theorem clean_rendered (h : repo.Unmarked) (ref : Option repo.Ref)
    (htext : ∀ shown, text = some shown → Text.Unmarked shown) :
    CleanAll (style.rendered ref text plural) := by
  cases ref with
  | none => exact (clean_link h none htext).chunks
  | some ref =>
      refine (clean_link h _ htext).chunks.append ?_
      intro chunk hmem
      obtain ⟨name, hname, rfl⟩ := List.mem_map.mp hmem
      exact Text.Unmarked.append (by decide) (unmarked_target h ref name hname)

end LinkStyle

end

end DocMarkup
