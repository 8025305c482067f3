import DocMarkup.Language

/-!
The characters of page ids and titles.

Ids and titles of pages are made of the names in a repository and of a few signs between them. One
sign is not in all of them: the arrow of a field's title, which is also in the titles that start
with that of the field.
-/

namespace DocMarkup

variable {allowed : Char → Prop}

def Text.Within (allowed : Char → Prop) (text : String) : Prop :=
  ∀ char ∈ text.toList, allowed char

-- Tests the characters of the text; what is found by itself may go over all characters there are.
instance [DecidablePred allowed] (text : String) : Decidable (Text.Within allowed text) :=
  List.decidableBAll allowed text.toList

namespace Text.Within

variable {first second : String}

theorem append (hfirst : Within allowed first) (hsecond : Within allowed second) :
    Within allowed (first ++ second) := by
  intro char hmem
  rw [String.toList_append] at hmem
  exact (List.mem_append.mp hmem).elim (hfirst char) (hsecond char)

end Text.Within

structure Entity.Within (allowed : Char → Prop) (entity : Entity) : Prop where
  name : Text.Within allowed entity.name
  symbol : ∀ symbol, entity.symbol = some symbol → Text.Within allowed symbol
  shadows : ∀ name, entity.kind.shadows? = some name → Text.Within allowed name

theorem Entity.within_iff {entity : Entity} :
    entity.Within allowed ↔ Text.Within allowed entity.name ∧
      (∀ symbol ∈ entity.symbol.toList, Text.Within allowed symbol) ∧
        ∀ name ∈ entity.kind.shadows?.toList, Text.Within allowed name := by
  simp only [Option.mem_toList]
  exact ⟨fun h => ⟨h.name, h.symbol, h.shadows⟩, fun ⟨hname, hsymbol, hshadows⟩ =>
    ⟨hname, hsymbol, hshadows⟩⟩

instance [DecidablePred allowed] (entity : Entity) : Decidable (entity.Within allowed) :=
  decidable_of_iff _ Entity.within_iff.symm

theorem Entity.Within.publicName {entity : Entity} (h : entity.Within allowed) :
    Text.Within allowed entity.publicName := by
  unfold Entity.publicName
  cases hshadows : entity.kind.shadows? with
  | none => exact h.name
  | some name => exact h.shadows name hshadows

inductive Lineage.Within (allowed : Char → Prop) : Lineage → Prop
  | top {entity : Entity} (h : entity.Within allowed) : Within allowed (.top entity)
  | member {entity : Entity} {parent : Lineage} (h : entity.Within allowed)
      (hparent : Within allowed parent) : Within allowed (.member entity parent)

theorem Namespace.lineage_within {space : Namespace}
    (h : ∀ entity ∈ space.entities, entity.Within allowed) (id : space.Id) :
    (space.lineage id).Within allowed := by
  have hentity : ∀ id, (space.entity id).Within allowed :=
    fun id => h _ (Array.getElem_mem id.isLt)
  fun_induction Namespace.lineage space id with
  | case1 id hparent => exact .top (hentity id)
  | case2 id owner hparent ih => exact .member (hentity id) ih

/-- The names of namespaces and all names in them. -/
structure Repository.Within (allowed : Char → Prop) (repo : Repository) : Prop where
  spaces : ∀ space ∈ repo.namespaces, Text.Within allowed space.name
  entities : ∀ space ∈ repo.namespaces, ∀ entity ∈ space.entities, entity.Within allowed

/-- Whatever titles have besides names and arrows. Names of fields are spelled in small letters. -/
structure Signs (allowed : Char → Prop) : Prop where
  written : ∀ char ∈ ".:_-prototype".toList, allowed char
  toLower : ∀ char, allowed char → allowed char.toLower

theorem eq_of_toLower_eq {char sign : Char} (hsign : sign.isLower = false)
    (h : char.toLower = sign) : char = sign := by
  unfold Char.toLower at h
  split at h
  · next hupper =>
      have hval : char.val + ('a'.val - 'A'.val) = sign.val := congrArg Char.val h
      have hsign : (decide ('a'.val ≤ sign.val) && decide (sign.val ≤ 'z'.val)) = false := hsign
      simp only [Bool.and_eq_false_iff, decide_eq_false_iff_not, ← hval] at hsign
      simp only [UInt32.le_iff_toNat_le, UInt32.toNat_add] at hsign hupper
      simp at hsign hupper
      omega
  · exact h

theorem signs_ne {sign : Char} (hlower : sign.isLower = false)
    (h : sign ∉ ".:_-prototype".toList) : Signs (· ≠ sign) where
  written _ hmem heq := h (heq ▸ hmem)
  toLower _ hchar heq := hchar (eq_of_toLower_eq hlower heq)

theorem Signs.and {first second : Char → Prop} (hfirst : Signs first) (hsecond : Signs second) :
    Signs fun char => first char ∧ second char where
  written _ hmem := ⟨hfirst.written _ hmem, hsecond.written _ hmem⟩
  toLower _ h := ⟨hfirst.toLower _ h.1, hsecond.toLower _ h.2⟩

theorem Signs.within (hsigns : Signs allowed) {text : String}
    (h : text.toList ⊆ ".:_-prototype".toList) : Text.Within allowed text :=
  fun char hmem => hsigns.written char (h hmem)

theorem Lineage.Within.pageId {space : String} {lineage : Lineage} (h : lineage.Within allowed)
    (hsigns : Signs allowed) (hspace : Text.Within allowed space) :
    Text.Within allowed (lineage.pageId space) := by
  have hdot : Text.Within allowed "." := hsigns.within (by decide)
  have hhyphen : Text.Within allowed "-" := hsigns.within (by decide)
  induction h with
  | top h => exact (hspace.append hdot).append h.publicName
  | member h hparent ih =>
      rw [Lineage.pageId]
      split
      · exact (ih.append hhyphen).append h.name
      · exact (ih.append hdot).append h.publicName

namespace Language

variable {language : Language} {entity : Entity} {owner : Option String} {space : String}
  {lineage : Lineage}

def titlesAfterOwner (language : Language) : EntityKind → Bool
  | .field => true
  | .property _ => true
  | .signal _ => true
  | .virtualFunction _ => true
  | .function _ => language != c
  | _ => false

/-- The title of the page has an arrow. -/
inductive Arrowed (language : Language) : Lineage → Prop
  | field {entity : Entity} {parent : Lineage} (hlanguage : language ≠ gjs)
      (hkind : entity.kind = .field) : Arrowed language (.member entity parent)
  | owner {entity : Entity} {parent : Lineage} (hkind : language.titlesAfterOwner entity.kind = true)
      (hparent : Arrowed language parent) : Arrowed language (.member entity parent)

theorem within_words (hsigns : Signs allowed) (previous : Option Char) {chars : List Char}
    (h : ∀ char ∈ chars, allowed char) :
    ∀ char ∈ underscored.words previous chars, allowed char := by
  have hunderscore : allowed '_' := hsigns.written '_' (by decide)
  induction chars generalizing previous with
  | nil => exact h
  | cons char rest ih =>
      obtain ⟨hchar, hrest⟩ := List.forall_mem_cons.mp h
      have hlower := hsigns.toLower char hchar
      rw [underscored.words]
      refine List.forall_mem_append.mpr ⟨?_, ih (some char) hrest⟩
      split <;> simp [hlower, hunderscore]

theorem within_underscored (hsigns : Signs allowed) (h : entity.Within allowed) :
    Text.Within allowed (underscored entity) := by
  unfold underscored Text.Within
  split
  · rw [String.toList_ofList, List.forall_mem_map]
    intro char hmem
    split
    · exact hsigns.written '_' (by decide)
    · exact h.name char hmem
  · rw [String.toList_ofList]
    exact within_words hsigns none h.name

theorem within_functionTitleOf (hsigns : Signs allowed) (h : entity.Within allowed)
    (howner : language ≠ c → ∀ name, owner = some name → Text.Within allowed name) :
    Text.Within allowed (language.functionTitleOf entity owner) := by
  have hdot : Text.Within allowed "." := hsigns.within (by decide)
  have hprototype : Text.Within allowed ".prototype." := hsigns.within (by decide)
  cases language with
  | c =>
      simp only [functionTitleOf]
      split
      · cases hsymbol : entity.symbol with
        | none => exact h.name
        | some symbol => exact h.symbol symbol hsymbol
      · exact h.name
  | python =>
      cases owner with
      | none => exact h.name
      | some owner => exact ((howner (by decide) owner rfl).append hdot).append h.name
  | gjs =>
      cases owner with
      | none => exact h.publicName
      | some owner =>
          have htitle := howner (by decide) owner rfl
          simp only [functionTitleOf]
          split
          · exact (htitle.append hprototype).append h.publicName
          · exact (htitle.append hdot).append h.publicName

theorem within_lineagePageTitle (hsigns : Signs allowed) (hspace : Text.Within allowed space)
    (h : lineage.Within allowed) (harrow : language.Arrowed lineage → allowed '>') :
    Text.Within allowed (language.lineagePageTitle space lineage) := by
  induction h with
  | @top entity hentity =>
      rw [lineagePageTitle]
      split
      · exact within_functionTitleOf hsigns hentity fun _ _ howner => nomatch howner
      · exact (Lineage.Within.top hentity).pageId hsigns hspace
  | @member entity parent hentity hparent ih =>
      have hafter (hkind : language.titlesAfterOwner entity.kind = true) :
          Text.Within allowed (language.lineagePageTitle space parent) :=
        ih fun hparent => harrow (.owner hkind hparent)
      have hunderscored := within_underscored hsigns hentity
      have hdot : Text.Within allowed "." := hsigns.within (by decide)
      have hcolon : Text.Within allowed ":" := hsigns.within (by decide)
      have hcolons : Text.Within allowed "::" := hsigns.within (by decide)
      unfold lineagePageTitle
      simp only
      split
      · next hkind => exact ((hafter (by rw [hkind]; rfl)).append hdot).append hunderscored
      · next hkind => exact ((hafter (by rw [hkind]; rfl)).append hdot).append hunderscored
      · next hkind =>
          refine within_functionTitleOf hsigns hentity fun hlanguage _ howner => ?_
          cases howner
          exact hafter (by rw [hkind]; exact bne_iff_ne.mpr hlanguage)
      · next hkind _ => exact ((hafter (by rw [hkind]; rfl)).append hcolon).append hentity.name
      · next hkind => exact ((hafter (by rw [hkind]; rfl)).append hcolons).append hentity.name
      · next hkind => exact ((hafter (by rw [hkind]; rfl)).append hcolons).append hentity.name
      · next hkind hlanguage =>
          have hsign : Text.Within allowed "->" := by
            refine List.forall_mem_cons.mpr ⟨hsigns.written '-' (by decide), ?_⟩
            exact List.forall_mem_singleton.mpr (harrow (.field hlanguage hkind))
          exact ((hafter (by rw [hkind]; rfl)).append hsign).append hentity.name
      · exact (Lineage.Within.member hentity hparent).pageId hsigns hspace

theorem exists_functionTitleOf_eq (h : language ≠ c) (name : String) :
    ∃ rest, language.functionTitleOf entity (some name) = name ++ rest := by
  cases language with
  | c => exact absurd rfl h
  | python => exact ⟨_, String.append_assoc⟩
  | gjs =>
      simp only [functionTitleOf]
      split
      · exact ⟨_, String.append_assoc⟩
      · exact ⟨_, String.append_assoc⟩

theorem exists_lineagePageTitle_eq {parent : Lineage}
    (hkind : language.titlesAfterOwner entity.kind = true) (space : String) :
    ∃ rest, language.lineagePageTitle space (.member entity parent) =
      language.lineagePageTitle space parent ++ rest := by
  generalize howner : language.lineagePageTitle space parent = owner
  unfold lineagePageTitle
  simp only [howner]
  split
  · exact ⟨_, String.append_assoc⟩
  · exact ⟨_, String.append_assoc⟩
  · next hfunction =>
      rw [hfunction] at hkind
      exact exists_functionTitleOf_eq (bne_iff_ne.mp hkind) _
  · exact ⟨_, String.append_assoc⟩
  · exact ⟨_, String.append_assoc⟩
  · exact ⟨_, String.append_assoc⟩
  · exact ⟨_, String.append_assoc⟩
  · unfold titlesAfterOwner at hkind
    split at hkind <;> simp_all

theorem greater_mem_lineagePageTitle (h : language.Arrowed lineage) (space : String) :
    '>' ∈ (language.lineagePageTitle space lineage).toList := by
  induction h with
  | @field entity parent hlanguage hkind =>
      cases language with
      | c => simp [lineagePageTitle, hkind]
      | python => simp [lineagePageTitle, hkind]
      | gjs => exact absurd rfl hlanguage
  | owner hkind hparent ih =>
      obtain ⟨rest, heq⟩ := exists_lineagePageTitle_eq hkind space
      rw [heq, String.toList_append]
      exact List.mem_append_left _ ih

end Language

namespace Repository.Within

variable {repo : Repository} (h : repo.Within allowed) (hsigns : Signs allowed) (ref : repo.Ref)

include h

theorem lineage : ref.lineage.Within allowed :=
  Namespace.lineage_within (h.entities _ (List.getElem_mem _)) ref.id

include hsigns

theorem pageId : Text.Within allowed ref.pageId :=
  (h.lineage ref).pageId hsigns (h.spaces _ (List.getElem_mem _))

theorem pageTitle (language : Language) (harrow : language.Arrowed ref.lineage → allowed '>') :
    Text.Within allowed (language.pageTitle ref) :=
  Language.within_lineagePageTitle hsigns (h.spaces _ (List.getElem_mem _)) (h.lineage ref) harrow

end Repository.Within

end DocMarkup
