import Mathlib.Data.List.FinRange
import Mathlib.Data.List.Sort
import DocMarkup.Repository.Namespace

/-!
Namespaces as indexes of their declarations.

Declarations are laid out each before those nested in it, and the places of the nested ones are the
children of its entity. So an entity that has a parent is one of its children, going up ends at the
top, and the declarations can be built again from the entities at the top and their children. What
is found by a name or by a symbol is the last declaration that has it.
-/

namespace DocMarkup

namespace Declaration

variable {arena : List Entity} {parent : Option Nat} {index : Nat} {decls : List Declaration}

mutual

/-- What a declaration says, and then what those nested in it say. -/
def preorder : Declaration → List EntityInfo
  | ⟨info, children⟩ => info :: preorderAll children

def preorderAll : List Declaration → List EntityInfo
  | [] => []
  | decl :: rest => preorder decl ++ preorderAll rest

end

mutual

theorem map_layout (parent : Option Nat) (index : Nat) :
    ∀ decl : Declaration, (layout parent index decl).map (·.toEntityInfo) = preorder decl
  | ⟨info, children⟩ => by
      rw [layout, preorder, List.map_cons, map_layoutAll (some index) (index + 1) children]

theorem map_layoutAll (parent : Option Nat) (index : Nat) :
    ∀ decls : List Declaration,
      (layoutAll parent index decls).map (·.toEntityInfo) = preorderAll decls
  | [] => rfl
  | decl :: rest => by
      rw [layoutAll, preorderAll, List.map_append, map_layout parent index decl,
        map_layoutAll parent (index + decl.size) rest]

end

theorem sorted_indices (index : Nat) (decls : List Declaration) :
    (indices index decls).Pairwise (· < ·) := by
  induction decls generalizing index with
  | nil => exact .nil
  | cons decl rest ih =>
      refine .cons (fun later hlater => ?_) (ih (index + decl.size))
      have hpos := size_pos decl
      have hbounds := bounds_of_mem_indices hlater
      omega

mutual

/-- The entities of a declaration are in the arena from `index` on. -/
def LaidOut (arena : List Entity) (parent : Option Nat) (index : Nat) : Declaration → Prop
  | ⟨info, children⟩ =>
      arena[index]? = some ⟨info, parent, indices (index + 1) children⟩ ∧
        LaidOutAll arena (some index) (index + 1) children

def LaidOutAll (arena : List Entity) (parent : Option Nat) (index : Nat) :
    List Declaration → Prop
  | [] => True
  | decl :: rest =>
      LaidOut arena parent index decl ∧ LaidOutAll arena parent (index + decl.size) rest

end

mutual

theorem laidOut_of_layout (parent : Option Nat) (index : Nat) :
    ∀ decl : Declaration,
      (∀ offset entity, (layout parent index decl)[offset]? = some entity →
        arena[index + offset]? = some entity) →
      LaidOut arena parent index decl
  | ⟨info, children⟩ => by
      intro h
      rw [layout] at h
      refine ⟨h 0 _ rfl, laidOutAll_of_layoutAll (some index) (index + 1) children ?_⟩
      intro offset entity hentity
      rw [Nat.add_assoc, Nat.add_comm 1]
      exact h (offset + 1) entity hentity

theorem laidOutAll_of_layoutAll (parent : Option Nat) (index : Nat) :
    ∀ decls : List Declaration,
      (∀ offset entity, (layoutAll parent index decls)[offset]? = some entity →
        arena[index + offset]? = some entity) →
      LaidOutAll arena parent index decls
  | [] => fun _ => trivial
  | decl :: rest => by
      intro h
      rw [layoutAll] at h
      constructor
      · refine laidOut_of_layout parent index decl fun offset entity hentity => ?_
        have hlt := (List.getElem?_eq_some_iff.mp hentity).1
        exact h offset entity (by rw [List.getElem?_append_left hlt, hentity])
      · refine laidOutAll_of_layoutAll parent (index + decl.size) rest ?_
        intro offset entity hentity
        rw [Nat.add_assoc]
        refine h (decl.size + offset) entity ?_
        rw [List.getElem?_append_right (by simp), length_layout, Nat.add_sub_cancel_left, hentity]

end

theorem exists_of_mem_indices (h : LaidOutAll arena parent index decls) {place : Nat}
    (hplace : place ∈ indices index decls) : ∃ decl, LaidOut arena parent place decl := by
  induction decls generalizing index with
  | nil => cases hplace
  | cons decl rest ih =>
      rcases List.mem_cons.mp hplace with rfl | hplace
      · exact ⟨decl, h.1⟩
      · exact ih h.2 hplace

/-- The declaration at a place is one of those laid out or nested in another one. -/
def Owned (arena : List Entity) (parent : Option Nat) (places : List Nat) (place : Nat) : Prop :=
  ∃ owner decl, LaidOut arena owner place decl ∧
    (owner = parent ∧ place ∈ places ∨
      ∃ above entity, owner = some above ∧ arena[above]? = some entity ∧ place ∈ entity.children)

mutual

theorem owned_of_laidOut (index : Nat) :
    ∀ {parent : Option Nat} (decl : Declaration), LaidOut arena parent index decl →
      ∀ place, index ≤ place → place < index + decl.size → Owned arena parent [index] place
  | parent, ⟨info, children⟩ => by
      intro h place hle hlt
      rcases Nat.eq_or_lt_of_le hle with rfl | hinside
      · exact ⟨parent, _, h, .inl ⟨rfl, List.mem_singleton_self _⟩⟩
      · rw [size] at hlt
        obtain ⟨owner, decl, hdecl, ⟨rfl, hmem⟩ | hnested⟩ :=
          ownedAll_of_laidOutAll (index + 1) children h.2 place hinside (by omega)
        · exact ⟨some index, decl, hdecl, .inr ⟨index, _, rfl, h.1, hmem⟩⟩
        · exact ⟨owner, decl, hdecl, .inr hnested⟩

theorem ownedAll_of_laidOutAll (index : Nat) :
    ∀ {parent : Option Nat} (decls : List Declaration), LaidOutAll arena parent index decls →
      ∀ place, index ≤ place → place < index + sizeAll decls →
        Owned arena parent (indices index decls) place
  | parent, [] => by
      intro _ place hle hlt
      simp only [sizeAll] at hlt
      omega
  | parent, decl :: rest => by
      intro h place hle hlt
      rw [sizeAll] at hlt
      rw [indices]
      by_cases hfirst : place < index + decl.size
      · obtain ⟨owner, found, hfound, ⟨howner, hmem⟩ | hnested⟩ :=
          owned_of_laidOut index decl h.1 place hle hfirst
        · exact ⟨owner, found, hfound, .inl ⟨howner, by simp_all⟩⟩
        · exact ⟨owner, found, hfound, .inr hnested⟩
      · obtain ⟨owner, found, hfound, ⟨howner, hmem⟩ | hnested⟩ :=
          ownedAll_of_laidOutAll (index + decl.size) rest h.2 place (by omega) (by omega)
        · exact ⟨owner, found, hfound, .inl ⟨howner, List.mem_cons_of_mem _ hmem⟩⟩
        · exact ⟨owner, found, hfound, .inr hnested⟩

end

end Declaration

/-- The item at the place is the last that passes a test. -/
def IsLast (items : List α) (test : α → Prop) (place : Nat) : Prop :=
  (∃ item ∈ items[place]?, test item) ∧
    ∀ later, place < later → ∀ item ∈ items[later]?, ¬ test item

theorem isLast_map_iff {items : List (Fin n)} (hsorted : items.Pairwise (· < ·)) {f : Fin n → α}
    {test : α → Prop} {item : Fin n} :
    (∃ place, items[place]? = some item ∧ IsLast (items.map f) test place) ↔
      (item ∈ items ∧ test (f item)) ∧
        ∀ later, item < later → later ∈ items → ¬ test (f later) := by
  have hlt : ∀ {first second : Nat} {item other : Fin n}, items[first]? = some item →
      items[second]? = some other → (first < second ↔ item < other) := by
    intro first second item other hitem hother
    obtain ⟨hfirst, rfl⟩ := List.getElem?_eq_some_iff.mp hitem
    obtain ⟨hsecond, rfl⟩ := List.getElem?_eq_some_iff.mp hother
    exact hsorted.sortedLT.getElem_lt_getElem_iff.symm
  constructor
  · rintro ⟨place, hplace, ⟨found, hfound, htest⟩, hlast⟩
    have hmem := List.mem_of_getElem? hplace
    rw [List.getElem?_map, hplace] at hfound
    cases Option.mem_some.mp hfound
    refine ⟨⟨hmem, htest⟩, fun later hafter hlater => ?_⟩
    obtain ⟨second, hsecond⟩ := List.mem_iff_getElem?.mp hlater
    exact hlast second ((hlt hplace hsecond).mpr hafter) _ (by simp [hsecond])
  · rintro ⟨⟨hmem, htest⟩, hlast⟩
    obtain ⟨place, hplace⟩ := List.mem_iff_getElem?.mp hmem
    refine ⟨place, hplace, ⟨_, by simp [hplace], htest⟩, fun second hsecond found hfound => ?_⟩
    simp only [List.getElem?_map, Option.mem_def, Option.map_eq_some_iff] at hfound
    obtain ⟨later, hlater, rfl⟩ := hfound
    exact hlast later ((hlt hplace hlater).mp hsecond) (List.mem_of_getElem? hlater)

namespace Lineage

def entities : Lineage → List Entity
  | top entity => [entity]
  | member entity parent => entity :: parent.entities

end Lineage

namespace Namespace

variable {space : Namespace} {id owner : space.Id}

/-- Going up from an entity leads through others to one at the top. -/
inductive Climb (space : Namespace) : space.Id → List space.Id → Prop
  | top {id : space.Id} (htop : space.parent? id = none) : Climb space id [id]
  | member {id owner : space.Id} {path : List space.Id} (howner : space.parent? id = some owner)
      (hpath : Climb space owner path) : Climb space id (id :: path)

/-- Children come after what they are nested in. -/
def Nested (space : Namespace) : Prop :=
  ∀ id, ∀ child ∈ space.children id, id < child

def declaration (space : Namespace) (hnested : space.Nested) (id : space.Id) : Declaration :=
  ⟨(space.entity id).toEntityInfo,
    (space.children id).attach.map fun child => space.declaration hnested child.val⟩
termination_by space.entities.size - id.val
decreasing_by
  exact Nat.sub_lt_sub_left id.isLt (hnested id child.val child.property)

def tops (space : Namespace) : List space.Id :=
  space.ids.filter fun id => (space.parent? id).isNone

/-- The entities are those of the declarations, and can be found by what is declared. -/
structure Indexes (space : Namespace) (decls : List Declaration) : Prop where
  order : space.entities.toList.map (·.toEntityInfo) = Declaration.preorderAll decls
  parents : ∀ id owner, space.parent? id = some owner →
    owner < id ∧ (space.children owner).count id = 1
  children : ∀ id, ∀ child ∈ space.children id, space.parent? child = some id
  rebuilt : ∃ hnested : space.Nested, space.tops.map (space.declaration hnested) = decls
  named : ∀ name id, space.get? name = some id ↔
    ∃ place, space.tops[place]? = some id ∧ IsLast decls (·.name = name) place
  unnamed : ∀ name, space.get? name = none ↔ ∀ decl ∈ decls, decl.name ≠ name
  withSymbol : ∀ symbol id, space.withSymbol? symbol = some id ↔
    IsLast (Declaration.preorderAll decls) (·.symbol = some symbol) id
  withoutSymbol : ∀ symbol, space.withSymbol? symbol = none ↔
    ∀ info ∈ Declaration.preorderAll decls, info.symbol ≠ some symbol
  /-- Page ids, anchors and titles go up this way. -/
  climbs : ∀ id, ∃ path, space.Climb id path ∧ path.length ≤ id + 1 ∧
    (space.lineage id).entities = path.map space.entity

theorem sorted_ids (space : Namespace) : space.ids.Pairwise (· < ·) :=
  (List.sortedLT_finRange space.entities.size).pairwise

theorem mem_ids (id : space.Id) : id ∈ space.ids :=
  List.mem_finRange id

theorem findLast?_eq_none_iff {test : Entity → Bool} :
    space.findLast? test = none ↔ ∀ id, test (space.entity id) = false := by
  rw [findLast?, List.findRev?_eq_find?_reverse, List.find?_eq_none]
  simp [mem_ids]

theorem last_of_findLast? {test : Entity → Bool} (h : space.findLast? test = some id) :
    test (space.entity id) = true ∧ ∀ later, id < later → test (space.entity later) = false := by
  rw [findLast?, List.findRev?_eq_find?_reverse, List.find?_eq_some_iff_append] at h
  obtain ⟨htest, after, before, hids, hafter⟩ := h
  refine ⟨htest, fun later hlater => ?_⟩
  have hsorted : (after ++ id :: before).Pairwise (· > ·) := by
    rw [← hids]
    exact List.pairwise_reverse.mpr space.sorted_ids
  have hmem : later ∈ after ++ id :: before := by
    rw [← hids]
    exact List.mem_reverse.mpr (mem_ids later)
  rcases List.mem_append.mp hmem with hmem | hmem
  · simpa using hafter later hmem
  · rcases List.mem_cons.mp hmem with rfl | hmem
    · exact absurd hlater (lt_irrefl _)
    · have hbefore := (List.pairwise_cons.mp (List.pairwise_append.mp hsorted).2.1).1 later hmem
      exact absurd hlater (lt_asymm hbefore)

theorem findLast?_eq_some_iff {test : Entity → Bool} :
    space.findLast? test = some id ↔
      test (space.entity id) = true ∧
        ∀ later, id < later → test (space.entity later) = false := by
  refine ⟨last_of_findLast?, fun ⟨htest, hlast⟩ => ?_⟩
  cases hfound : space.findLast? test with
  | none => exact absurd (findLast?_eq_none_iff.mp hfound id) (by simp [htest])
  | some found =>
      obtain ⟨htest', hlast'⟩ := last_of_findLast? hfound
      rcases lt_trichotomy found id with hlt | rfl | hlt
      · exact absurd (hlast' id hlt) (by simp [htest])
      · rfl
      · exact absurd (hlast found hlt) (by simp [htest'])

theorem parent?_eq_some_iff : space.parent? id = some owner ↔
    (space.entity id).parent = some owner.val := by
  unfold parent?
  split
  · next hnone => simp [hnone]
  · next index hindex => simp [hindex, Fin.ext_iff]

theorem parent?_eq_none_iff : space.parent? id = none ↔ (space.entity id).parent = none := by
  unfold parent?
  split
  · next hnone => simp [hnone]
  · next index hindex => simp [hindex]

theorem map_children (id : space.Id) :
    (space.children id).map Fin.val = (space.entity id).children := by
  simp [children]

theorem mem_children_iff {child : space.Id} :
    child ∈ space.children id ↔ child.val ∈ (space.entity id).children := by
  rw [← map_children, List.mem_map_of_injective Fin.val_injective]

theorem mem_tops_iff : id ∈ space.tops ↔ (space.entity id).parent = none := by
  rw [tops, List.mem_filter, Option.isNone_iff_eq_none, parent?_eq_none_iff]
  exact and_iff_right (mem_ids id)

theorem sorted_tops (space : Namespace) : space.tops.Pairwise (· < ·) :=
  space.sorted_ids.filter _

theorem climbs (id : space.Id) :
    ∃ path, space.Climb id path ∧ path.length ≤ id.val + 1 ∧
      (space.lineage id).entities = path.map space.entity := by
  fun_induction Namespace.lineage space id with
  | case1 id htop => exact ⟨[id], .top htop, Nat.le_add_left 1 _, rfl⟩
  | case2 id owner howner ih =>
      obtain ⟨path, hpath, hlength, hentities⟩ := ih
      have hlt : owner.val < id.val := parent?_lt howner
      refine ⟨id :: path, .member howner hpath, ?_, ?_⟩
      · rw [List.length_cons]
        omega
      · rw [Lineage.entities, hentities, List.map_cons]

section

open Declaration

variable {decls : List Declaration} {parent : Option Nat}

theorem getElem?_entities (id : space.Id) :
    space.entities.toList[id.val]? = some (space.entity id) := by
  rw [Array.getElem?_toList]
  exact Array.getElem?_eq_getElem id.isLt

theorem entity_of_laidOut {info : EntityInfo} {nested : List Declaration}
    (h : LaidOut space.entities.toList parent id.val ⟨info, nested⟩) :
    space.entity id = ⟨info, parent, indices (id.val + 1) nested⟩ := by
  exact Option.some.inj ((getElem?_entities id).symm.trans h.1)

theorem parent_of_laidOut {decl : Declaration}
    (h : LaidOut space.entities.toList parent id.val decl) :
    (space.entity id).parent = parent := by
  obtain ⟨info, nested⟩ := decl
  rw [entity_of_laidOut h]

mutual

theorem declaration_of_laidOut (hnested : space.Nested) :
    ∀ {parent : Option Nat} (decl : Declaration) (id : space.Id),
      LaidOut space.entities.toList parent id.val decl → space.declaration hnested id = decl
  | parent, ⟨info, nested⟩, id, h => by
      have hentity := entity_of_laidOut h
      have hchildren : (space.children id).map (space.declaration hnested) = nested := by
        refine declarations_of_laidOut hnested (id.val + 1) nested _ ?_ h.2
        rw [map_children, hentity]
      rw [declaration, List.attach_map_val, hchildren, hentity]

theorem declarations_of_laidOut (hnested : space.Nested) :
    ∀ {parent : Option Nat} (index : Nat) (decls : List Declaration) (ids : List space.Id),
      ids.map Fin.val = indices index decls → LaidOutAll space.entities.toList parent index decls →
      ids.map (space.declaration hnested) = decls
  | _, index, [], ids, hids, _ => by
      rw [indices, List.map_eq_nil_iff] at hids
      rw [hids, List.map_nil]
  | parent, index, decl :: rest, ids, hids, h => by
      rw [indices, List.map_eq_cons_iff] at hids
      obtain ⟨id, later, rfl, rfl, hlater⟩ := hids
      rw [List.map_cons, declaration_of_laidOut hnested decl id h.1,
        declarations_of_laidOut hnested (id.val + decl.size) rest later hlater h.2]

end

variable (hlaid : LaidOutAll space.entities.toList none 0 decls)
  (hsize : sizeAll decls = space.entities.size)

include hlaid hsize

theorem owned (id : space.Id) : Owned space.entities.toList none (indices 0 decls) id.val := by
  refine ownedAll_of_laidOutAll 0 decls hlaid id.val (Nat.zero_le _) ?_
  rw [Nat.zero_add, hsize]
  exact id.isLt

theorem exists_nested (id : space.Id) :
    ∃ info parent nested, space.entity id = ⟨info, parent, indices (id.val + 1) nested⟩ ∧
      LaidOutAll space.entities.toList (some id.val) (id.val + 1) nested := by
  obtain ⟨parent, ⟨info, nested⟩, h, -⟩ := owned hlaid hsize id
  exact ⟨info, parent, nested, entity_of_laidOut h, h.2⟩

theorem nested_of_laidOut : space.Nested := by
  intro id child hchild
  obtain ⟨info, parent, nested, hentity, -⟩ := exists_nested hlaid hsize id
  rw [mem_children_iff, hentity] at hchild
  exact (bounds_of_mem_indices hchild).1

theorem parent?_of_mem_children {child : space.Id} (hchild : child ∈ space.children id) :
    space.parent? child = some id := by
  obtain ⟨info, parent, nested, hentity, hnested⟩ := exists_nested hlaid hsize id
  rw [mem_children_iff, hentity] at hchild
  obtain ⟨decl, hdecl⟩ := exists_of_mem_indices hnested hchild
  rw [parent?_eq_some_iff, parent_of_laidOut hdecl]

theorem count_children (howner : space.parent? id = some owner) :
    (space.children owner).count id = 1 := by
  have hmem : id ∈ space.children owner := by
    obtain ⟨parent, decl, hdecl, htop | ⟨above, holder, habove, hentity, hmem⟩⟩ :=
      owned hlaid hsize id
    · rw [parent?_eq_some_iff, parent_of_laidOut hdecl, htop.1] at howner
      cases howner
    · rw [parent?_eq_some_iff, parent_of_laidOut hdecl, habove] at howner
      cases howner
      rw [mem_children_iff, Option.some.inj ((getElem?_entities owner).symm.trans hentity)]
      exact hmem
  have hnodup : (space.children owner).Nodup := by
    obtain ⟨info, parent, nested, hentity, -⟩ := exists_nested hlaid hsize owner
    refine List.Nodup.of_map Fin.val ?_
    rw [map_children, hentity]
    exact (sorted_indices _ nested).nodup
  exact List.count_eq_one_of_mem hnodup hmem

theorem map_tops : space.tops.map Fin.val = indices 0 decls := by
  have hsorted : (space.tops.map Fin.val).Pairwise (· < ·) :=
    List.pairwise_map.mpr space.sorted_tops
  refine hsorted.eq_of_mem_iff (sorted_indices 0 decls) fun place => ?_
  constructor
  · intro hmem
    obtain ⟨id, hid, rfl⟩ := List.mem_map.mp hmem
    obtain ⟨parent, decl, hdecl, htop | ⟨above, holder, habove, -⟩⟩ := owned hlaid hsize id
    · exact htop.2
    · rw [mem_tops_iff, parent_of_laidOut hdecl, habove] at hid
      cases hid
  · intro hplace
    have hlt := (bounds_of_mem_indices hplace).2
    rw [Nat.zero_add, hsize] at hlt
    obtain ⟨decl, hdecl⟩ := exists_of_mem_indices hlaid hplace
    have htop : (space.entity ⟨place, hlt⟩).parent = none := parent_of_laidOut hdecl
    exact List.mem_map.mpr ⟨⟨place, hlt⟩, mem_tops_iff.mpr htop, rfl⟩

end

theorem getElem?_ids_iff {place : Nat} : space.ids[place]? = some id ↔ place = id.val := by
  rw [ids, List.getElem?_eq_some_iff]
  constructor
  · rintro ⟨_, rfl⟩
    simp
  · rintro rfl
    exact ⟨by simp, by simp⟩

theorem map_ids (space : Namespace) : space.ids.map space.entity = space.entities.toList := by
  refine List.ext_getElem? fun place => ?_
  by_cases hplace : place < space.entities.size
  · have hid : space.ids[place]? = some ⟨place, hplace⟩ := getElem?_ids_iff.mpr rfl
    rw [List.getElem?_map, hid, Option.map_some]
    exact (getElem?_entities ⟨place, hplace⟩).symm
  · simp [ids, hplace]

theorem name_declaration (hnested : space.Nested) (id : space.Id) :
    (space.declaration hnested id).name = (space.entity id).name := by
  rw [declaration]

theorem get?_eq_some_iff (hnested : space.Nested) {name : String} :
    space.get? name = some id ↔
      ∃ place, space.tops[place]? = some id ∧
        IsLast (space.tops.map (space.declaration hnested)) (·.name = name) place := by
  rw [isLast_map_iff space.sorted_tops, get?, findLast?_eq_some_iff]
  simp [mem_tops_iff, name_declaration]

theorem get?_eq_none_iff (hnested : space.Nested) {name : String} :
    space.get? name = none ↔
      ∀ decl ∈ space.tops.map (space.declaration hnested), decl.name ≠ name := by
  rw [get?, findLast?_eq_none_iff, List.forall_mem_map]
  simp [mem_tops_iff, name_declaration]

theorem withSymbol?_eq_some_iff {symbol : String} :
    space.withSymbol? symbol = some id ↔
      IsLast (space.entities.toList.map (·.toEntityInfo)) (·.symbol = some symbol) id.val := by
  have hplace :
      IsLast (space.entities.toList.map (·.toEntityInfo)) (·.symbol = some symbol) id.val ↔
        ∃ place, space.ids[place]? = some id ∧
          IsLast (space.ids.map fun id => (space.entity id).toEntityInfo)
            (·.symbol = some symbol) place := by
    simp [getElem?_ids_iff, ← map_ids, Function.comp_def]
  rw [hplace, isLast_map_iff space.sorted_ids, withSymbol?, findLast?_eq_some_iff]
  simp [mem_ids]

theorem withSymbol?_eq_none_iff {symbol : String} :
    space.withSymbol? symbol = none ↔
      ∀ info ∈ space.entities.toList.map (·.toEntityInfo), info.symbol ≠ some symbol := by
  rw [withSymbol?, findLast?_eq_none_iff, List.forall_mem_map, ← map_ids, List.forall_mem_map]
  simp [mem_ids]

theorem entities_ofDecl (decl : NamespaceDeclaration) :
    (ofDecl decl).entities.toList = Declaration.layoutAll none 0 decl.entities :=
  rfl

theorem laidOut_ofDecl (decl : NamespaceDeclaration) :
    Declaration.LaidOutAll (ofDecl decl).entities.toList none 0 decl.entities := by
  refine Declaration.laidOutAll_of_layoutAll none 0 decl.entities fun offset entity h => ?_
  rw [entities_ofDecl, Nat.zero_add, h]

theorem sizeAll_ofDecl (decl : NamespaceDeclaration) :
    Declaration.sizeAll decl.entities = (ofDecl decl).entities.size := by
  rw [← Array.length_toList, entities_ofDecl, Declaration.length_layoutAll]

/-- For all declarations there is their namespace, which is an index of them. -/
theorem ofDecl_indexes (decl : NamespaceDeclaration) : (ofDecl decl).Indexes decl.entities := by
  have hlaid := laidOut_ofDecl decl
  have hsize := sizeAll_ofDecl decl
  have horder : (ofDecl decl).entities.toList.map (·.toEntityInfo) =
      Declaration.preorderAll decl.entities := by
    rw [entities_ofDecl, Declaration.map_layoutAll]
  have hnested := nested_of_laidOut hlaid hsize
  have hrebuilt : (ofDecl decl).tops.map ((ofDecl decl).declaration hnested) = decl.entities :=
    declarations_of_laidOut hnested 0 decl.entities _ (map_tops hlaid hsize) hlaid
  exact {
    order := horder
    parents := fun id owner howner => ⟨parent?_lt howner, count_children hlaid hsize howner⟩
    children := fun id child => parent?_of_mem_children hlaid hsize
    rebuilt := ⟨hnested, hrebuilt⟩
    named := fun name id => by rw [get?_eq_some_iff hnested, hrebuilt]
    unnamed := fun name => by rw [get?_eq_none_iff hnested, hrebuilt]
    withSymbol := fun symbol id => by rw [withSymbol?_eq_some_iff, horder]
    withoutSymbol := fun symbol => by rw [withSymbol?_eq_none_iff, horder]
    climbs := climbs }

end Namespace

end DocMarkup
