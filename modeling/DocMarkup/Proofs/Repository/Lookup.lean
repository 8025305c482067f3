import DocMarkup.Proofs.Repository.Layout
import DocMarkup.Repository
import Mathlib.Data.List.Induction

/-!
Look-up by qualified names.

A qualified name is taken apart at its dots, and each part is a step down. Every step has its own
rule for names that are declared more than once: the first namespace, the last entity at its top, the
first child. So an entity is found by one name at most, and it is found by none if a step to it
leads to another one.
-/

namespace DocMarkup

namespace Text

variable {separator : Char} {text : String} {parts : List String}

theorem splitChars_eq_splitOn (separator : Char) (chars : List Char) :
    splitChars separator chars = chars.splitOn separator := by
  induction chars with
  | nil => rfl
  | cons char rest ih =>
      have hne := splitChars_ne_nil separator rest
      rw [splitChars, List.splitOn_cons_eq_if_modifyHead, ih]
      rw [ih] at hne
      obtain ⟨part, parts, heq⟩ := List.exists_cons_of_ne_nil hne
      rw [heq]
      simp

theorem not_mem_of_mem_splitChars {chars part : List Char}
    (h : part ∈ splitChars separator chars) : separator ∉ part := by
  induction chars generalizing part with
  | nil =>
      rw [List.mem_singleton.mp h]
      exact List.not_mem_nil
  | cons char rest ih =>
      rw [splitChars] at h
      split at h
      · rcases List.mem_cons.mp h with rfl | hmem
        · exact List.not_mem_nil
        · exact ih hmem
      · next hchar =>
          split at h
          · next first parts hparts =>
              rw [hparts] at ih
              rcases List.mem_cons.mp h with rfl | hmem
              · exact List.not_mem_cons_of_ne_of_not_mem (Ne.symm hchar) (ih List.mem_cons_self)
              · exact ih (List.mem_cons_of_mem _ hmem)
          · next hnil => exact absurd hnil (splitChars_ne_nil separator rest)

theorem splitChars_eq_iff {chars : List Char} {parts : List (List Char)} :
    splitChars separator chars = parts ↔
      parts ≠ [] ∧ (∀ part ∈ parts, separator ∉ part) ∧ chars = [separator].intercalate parts := by
  constructor
  · rintro rfl
    refine ⟨splitChars_ne_nil separator chars, fun part => not_mem_of_mem_splitChars, ?_⟩
    rw [splitChars_eq_splitOn, List.intercalate_splitOn]
  · rintro ⟨hne, hparts, rfl⟩
    rw [splitChars_eq_splitOn, List.splitOn_intercalate separator hparts hne]

theorem split_eq_iff :
    split separator text = parts ↔
      parts ≠ [] ∧ (∀ part ∈ parts, separator ∉ part.toList) ∧
        text = (String.singleton separator).intercalate parts := by
  have hchars : split separator text = parts ↔
      splitChars separator text.toList = parts.map String.toList := by
    rw [split]
    constructor
    · rintro rfl
      simp
    · intro h
      rw [h]
      simp
  rw [hchars, splitChars_eq_iff, ← String.toList_inj, String.toList_intercalate]
  simp

end Text

namespace Lineage

def names : Lineage → List String
  | top entity => [entity.name]
  | member entity parent => parent.names ++ [entity.name]

theorem names_ne_nil (lineage : Lineage) : lineage.names ≠ [] := by
  cases lineage <;> simp [names]

end Lineage

namespace Namespace

variable {space : Namespace} {id owner : space.Id} {name : String} {names : List String}

/-- Nothing stands in the way to an entity from the top of its namespace: what is declared in no
other is the last of its name there, and what is declared in another the first child of its name. -/
inductive Foremost (space : Namespace) : space.Id → Prop
  | top {id : space.Id} (htop : space.parent? id = none)
      (hlast : ∀ later, id < later → space.parent? later = none →
        (space.entity later).name ≠ (space.entity id).name) :
      Foremost space id
  | member {id owner : space.Id} {before after : List space.Id}
      (howner : space.parent? id = some owner)
      (hchildren : space.children owner = before ++ id :: after)
      (hfirst : ∀ sibling ∈ before, (space.entity sibling).name ≠ (space.entity id).name)
      (habove : Foremost space owner) :
      Foremost space id

/-- Every child has the entity that it is a child of for a parent, and the other way round. -/
def Mutual (space : Namespace) : Prop :=
  ∀ id owner, id ∈ space.children owner ↔ space.parent? id = some owner

theorem mutual_ofDecl (decl : NamespaceDeclaration) : (ofDecl decl).Mutual := by
  have hlaid := laidOut_ofDecl decl
  have hsize := sizeAll_ofDecl decl
  refine fun id owner => ⟨parent?_of_mem_children hlaid hsize, fun howner => ?_⟩
  exact List.count_pos_iff.mp (by rw [count_children hlaid hsize howner]; exact Nat.one_pos)

theorem get?_eq_some_iff_last :
    space.get? name = some id ↔
      (space.parent? id = none ∧ (space.entity id).name = name) ∧
        ∀ later, id < later → space.parent? later = none → (space.entity later).name ≠ name := by
  rw [get?, findLast?_eq_some_iff]
  simp [parent?_eq_none_iff]

theorem child?_eq_some_iff :
    space.child? owner name (fun _ => true) = some id ↔
      (space.entity id).name = name ∧ ∃ before after,
        space.children owner = before ++ id :: after ∧
          ∀ sibling ∈ before, (space.entity sibling).name ≠ name := by
  rw [child?, List.find?_eq_some_iff_append]
  simp

/-- From the top of the namespace down along names. -/
def along? (space : Namespace) : List String → Option space.Id
  | [] => none
  | name :: names =>
      (space.get? name).bind fun id =>
        names.foldlM (fun owner name => space.child? owner name fun _ => true) id

theorem along?_concat (hne : names ≠ []) :
    space.along? (names ++ [name]) =
      (space.along? names).bind fun owner => space.child? owner name fun _ => true := by
  obtain ⟨first, names, rfl⟩ := List.exists_cons_of_ne_nil hne
  simp only [List.cons_append, along?, List.foldlM_append, List.foldlM_cons, List.foldlM_nil,
    bind_pure, Option.bind_eq_bind, Option.bind_assoc]

theorem along?_singleton_iff :
    space.along? [name] = some id ↔ [name] = (space.lineage id).names ∧ space.Foremost id := by
  have hget : space.along? [name] = space.get? name := by simp [along?]
  rw [hget, get?_eq_some_iff_last]
  constructor
  · rintro ⟨⟨htop, rfl⟩, hlast⟩
    exact ⟨by rw [lineage_top htop, Lineage.names], .top htop hlast⟩
  · rintro ⟨hnames, hforemost⟩
    cases hforemost with
    | top htop hlast =>
        rw [lineage_top htop, Lineage.names] at hnames
        cases List.singleton_inj.mp hnames
        exact ⟨⟨htop, rfl⟩, hlast⟩
    | member hparent =>
        rw [lineage_member hparent, Lineage.names] at hnames
        exact absurd (List.append_eq_singleton_iff.mp hnames.symm) (by simp [Lineage.names_ne_nil])

/-- Names lead to the entity that they are the names of, if nothing stands in the way to it. -/
theorem along?_eq_some_iff (hmutual : space.Mutual) :
    space.along? names = some id ↔ names = (space.lineage id).names ∧ space.Foremost id := by
  -- Along the way down each name is the last one so far, so the induction is from the end.
  induction names using List.reverseRecOn generalizing id with
  | nil => simp [along?, Ne.symm (Lineage.names_ne_nil _)]
  | append_singleton names name ih =>
      by_cases hne : names = []
      · rw [hne, List.nil_append]
        exact along?_singleton_iff
      · rw [along?_concat hne, Option.bind_eq_some_iff]
        constructor
        · rintro ⟨owner, howner, hchild⟩
          obtain ⟨hnames, habove⟩ := ih.mp howner
          obtain ⟨hname, before, after, hchildren, hfirst⟩ := child?_eq_some_iff.mp hchild
          have hparent : space.parent? id = some owner := by
            rw [← hmutual, hchildren]
            exact List.mem_append_right _ List.mem_cons_self
          subst hname
          refine ⟨?_, .member hparent hchildren hfirst habove⟩
          rw [lineage_member hparent, Lineage.names, ← hnames]
        · rintro ⟨hnames, hforemost⟩
          cases hforemost with
          | top htop =>
              rw [lineage_top htop, Lineage.names] at hnames
              exact absurd (List.append_eq_singleton_iff.mp hnames) (by simp [hne])
          | @member _ owner before after hparent hchildren hfirst habove =>
              rw [lineage_member hparent, Lineage.names] at hnames
              obtain ⟨habovenames, hname⟩ := List.append_inj' hnames rfl
              cases List.singleton_inj.mp hname
              exact ⟨owner, ih.mpr ⟨habovenames, habove⟩,
                child?_eq_some_iff.mpr ⟨rfl, before, after, hchildren, hfirst⟩⟩

end Namespace

namespace Repository

namespace Ref

variable {repo : Repository}

def names (ref : repo.Ref) : List String :=
  ref.namespaceOf.name :: ref.lineage.names

/-- Nothing stands in the way to the entity, and its namespace is the first of its name. -/
structure Foremost (ref : repo.Ref) : Prop where
  space : ∀ earlier < ref.space, (repo.space earlier).name ≠ ref.namespaceOf.name
  entity : (repo.space ref.space).Foremost ref.id

end Ref

variable {repo : Repository} {space : repo.SpaceId} {name : String} {names : List String}

theorem spaceByName?_eq_some_iff :
    repo.spaceByName? name = some space ↔
      (repo.space space).name = name ∧ ∀ earlier < space, (repo.space earlier).name ≠ name := by
  rw [spaceByName?, spaceIds, List.find?_eq_some_iff_getElem]
  simp only [beq_iff_eq, List.getElem_finRange, Fin.cast_mk, Bool.not_eq_true', beq_eq_false_iff_ne]
  refine and_congr_right fun _ => ⟨?_, fun hfirst => ?_⟩
  · rintro ⟨index, hindex, rfl, hfirst⟩ earlier hlt
    exact hfirst earlier.val hlt
  · exact ⟨space.val, by simp, rfl, fun earlier hlt => hfirst ⟨earlier, _⟩ hlt⟩

theorem descend?_eq (ref : repo.Ref) (names : List String) :
    descend? ref names =
      (names.foldlM (fun owner name => (repo.space ref.space).child? owner name fun _ => true)
        ref.id).map (⟨ref.space, ·⟩) := by
  induction names generalizing ref with
  | nil => rfl
  | cons name names ih =>
      rw [descend?, List.foldlM_cons, Ref.child?]
      cases (repo.space ref.space).child? ref.id name fun _ => true with
      | none => rfl
      | some child => exact ih ⟨ref.space, child⟩

theorem lookup?_of_split {qualified : String} (h : Text.split '.' qualified = name :: names) :
    repo.lookup? qualified =
      (repo.spaceByName? name).bind fun space =>
        ((repo.space space).along? names).map (⟨space, ·⟩) := by
  rw [lookup?, h]
  cases names with
  | nil => simp [Namespace.along?]
  | cons top names =>
      refine Option.bind_congr fun space _ => ?_
      rw [get?, Namespace.along?, Option.map_bind, Option.bind_eq_bind, Option.bind_map]
      exact Option.bind_congr fun id _ => descend?_eq ⟨space, id⟩ names

theorem mutual_space (decl : RepositoryDeclaration) (space : (ofDecl decl).SpaceId) :
    ((ofDecl decl).space space).Mutual := by
  have hmem : (ofDecl decl).space space ∈ (ofDecl decl).namespaces := List.getElem_mem _
  rcases List.mem_cons.mp hmem with heq | hmem
  · rw [heq]
    exact Namespace.mutual_ofDecl _
  · obtain ⟨other, -, heq⟩ := List.mem_map.mp hmem
    rw [← heq]
    exact Namespace.mutual_ofDecl other

/-- A name finds an entity just if it is made of the names down to it, none of which has a dot in
it, and nothing stands in the way. -/
theorem lookup?_eq_some_iff (decl : RepositoryDeclaration) (qualified : String)
    (ref : (ofDecl decl).Ref) :
    (ofDecl decl).lookup? qualified = some ref ↔
      qualified = ".".intercalate ref.names ∧ (∀ name ∈ ref.names, '.' ∉ name.toList) ∧
        ref.Foremost := by
  obtain ⟨name, names, hsplit⟩ :=
    List.exists_cons_of_ne_nil (Text.split_eq_iff.mp (Eq.refl (Text.split '.' qualified))).1
  have hnames : name :: names = ref.names ↔
      qualified = ".".intercalate ref.names ∧ ∀ name ∈ ref.names, '.' ∉ name.toList := by
    rw [← hsplit, Text.split_eq_iff, and_comm (a := qualified = _)]
    exact and_iff_right (List.cons_ne_nil _ _)
  rw [lookup?_of_split hsplit, ← and_assoc, ← hnames, Option.bind_eq_some_iff]
  constructor
  · rintro ⟨space, hspace, hfound⟩
    obtain ⟨id, hid, rfl⟩ := Option.map_eq_some_iff.mp hfound
    obtain ⟨rfl, hfirst⟩ := spaceByName?_eq_some_iff.mp hspace
    obtain ⟨rfl, hforemost⟩ := (Namespace.along?_eq_some_iff (mutual_space decl space)).mp hid
    exact ⟨rfl, hfirst, hforemost⟩
  · rintro ⟨heq, hfirst, hforemost⟩
    obtain ⟨rfl, rfl⟩ := List.cons.inj heq
    refine ⟨ref.space, spaceByName?_eq_some_iff.mpr ⟨rfl, hfirst⟩, ?_⟩
    have hid := (Namespace.along?_eq_some_iff (mutual_space decl ref.space)).mpr ⟨rfl, hforemost⟩
    exact Option.map_eq_some_iff.mpr ⟨ref.id, hid, rfl⟩

end Repository

end DocMarkup
