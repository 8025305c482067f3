import DocMarkup.Repository.Entity

/-!
Namespaces: the declarations of a library, laid out one after the other.

A declaration comes before those nested in it, so an index leads to an entity, and the index
of its parent is always smaller.
-/

namespace DocMarkup

structure NamespaceDeclaration where
  name : String
  version : String
  /-- How type names start: `Gtk` for `GtkWidget`. -/
  identifierPrefixes : List String := []
  /-- How symbols start: `gtk` for `gtk_widget_show`. -/
  symbolPrefixes : List String := []
  exportedPackages : List String := []
  entities : List Declaration := []
  deriving Repr

namespace Declaration

/-- Where declarations end up that are laid out from `index` on. -/
def indices (index : Nat) : List Declaration → List Nat
  | [] => []
  | decl :: rest => index :: indices (index + decl.size) rest

mutual

/-- The entities of a declaration laid out from `index` on. -/
def layout (parent : Option Nat) (index : Nat) : Declaration → List Entity
  | ⟨info, children⟩ =>
      ⟨info, parent, indices (index + 1) children⟩ ::
        layoutAll (some index) (index + 1) children

def layoutAll (parent : Option Nat) (index : Nat) : List Declaration → List Entity
  | [] => []
  | decl :: rest =>
      layout parent index decl ++ layoutAll parent (index + decl.size) rest

end

mutual

@[simp] theorem length_layout (parent : Option Nat) (index : Nat) :
    ∀ decl : Declaration, (layout parent index decl).length = decl.size
  | ⟨_, children⟩ => by
      simp [layout, size, length_layoutAll (some index) (index + 1) children]

@[simp] theorem length_layoutAll (parent : Option Nat) (index : Nat) :
    ∀ decls : List Declaration, (layoutAll parent index decls).length = sizeAll decls
  | [] => rfl
  | decl :: rest => by
      simp [layoutAll, sizeAll, length_layout parent index decl,
        length_layoutAll parent (index + decl.size) rest]

end

theorem size_pos (decl : Declaration) : 0 < decl.size := by
  cases decl
  simp [size]

theorem bounds_of_mem_indices {index child : Nat} {decls : List Declaration}
    (h : child ∈ indices index decls) : index ≤ child ∧ child < index + sizeAll decls := by
  induction decls generalizing index with
  | nil => simp [indices] at h
  | cons decl rest ih =>
      have hpos := size_pos decl
      rcases List.mem_cons.mp h with rfl | hrest
      · simp only [sizeAll]; omega
      · have := ih hrest
        simp only [sizeAll]; omega

/-- Entities laid out from `index` on below `parent` are well placed: other parents come
before their children, and children come after their parent and before the end. -/
def Placed (parent : Option Nat) (index stop : Nat) (entities : List Entity) : Prop :=
  ∀ offset entity, entities[offset]? = some entity →
    (∀ owner, entity.parent = some owner →
      parent = some owner ∨ (index ≤ owner ∧ owner < index + offset)) ∧
    ∀ child ∈ entity.children, index + offset < child ∧ child < stop

theorem Placed.append {parent : Option Nat} {index stop : Nat} {first second : List Entity}
    (hfirst : Placed parent index stop first)
    (hsecond : Placed parent (index + first.length) stop second) :
    Placed parent index stop (first ++ second) := by
  intro offset entity hentity
  by_cases hlt : offset < first.length
  · rw [List.getElem?_append_left hlt] at hentity
    exact hfirst offset entity hentity
  · rw [List.getElem?_append_right (by omega)] at hentity
    obtain ⟨hparent, hchildren⟩ := hsecond (offset - first.length) entity hentity
    constructor
    · intro owner howner
      rcases hparent owner howner with h | h
      · exact .inl h
      · exact .inr (by omega)
    · intro child hchild
      have := hchildren child hchild
      omega

theorem Placed.mono {parent : Option Nat} {index stop stop' : Nat} {entities : List Entity}
    (hle : stop ≤ stop') (h : Placed parent index stop entities) :
    Placed parent index stop' entities := by
  intro offset entity hentity
  obtain ⟨hparent, hchildren⟩ := h offset entity hentity
  exact ⟨hparent, fun child hchild =>
    ⟨(hchildren child hchild).1, Nat.lt_of_lt_of_le (hchildren child hchild).2 hle⟩⟩

mutual

theorem placed_layout (parent : Option Nat) (index : Nat) :
    ∀ decl : Declaration,
      Placed parent index (index + decl.size) (layout parent index decl)
  | ⟨info, children⟩ => by
      have hinner := placed_layoutAll (some index) (index + 1) children
      intro offset entity hentity
      simp only [layout, size] at hentity ⊢
      cases offset with
      | zero =>
          simp only [List.getElem?_cons_zero, Option.some.injEq] at hentity
          subst hentity
          refine ⟨fun owner howner => .inl howner, fun child hchild => ?_⟩
          have := bounds_of_mem_indices hchild
          omega
      | succ offset =>
          simp only [List.getElem?_cons_succ] at hentity
          obtain ⟨hparent, hchildren⟩ := hinner offset entity hentity
          constructor
          · intro owner howner
            rcases hparent owner howner with h | h
            · simp only [Option.some.injEq] at h
              exact .inr (by omega)
            · exact .inr (by omega)
          · intro child hchild
            have := hchildren child hchild
            omega

theorem placed_layoutAll (parent : Option Nat) (index : Nat) :
    ∀ decls : List Declaration,
      Placed parent index (index + sizeAll decls) (layoutAll parent index decls)
  | [] => by
      intro offset entity hentity
      simp [layoutAll] at hentity
  | decl :: rest => by
      have hfirst := placed_layout parent index decl
      have hrest := placed_layoutAll parent (index + decl.size) rest
      simp only [layoutAll, sizeAll]
      refine Placed.append (hfirst.mono (by omega)) ?_
      rw [length_layout]
      exact hrest.mono (by omega)

end

end Declaration

structure Namespace where
  name : String
  version : String
  identifierPrefixes : List String
  symbolPrefixes : List String
  exportedPackages : List String
  entities : Array Entity
  parent_lt : ∀ (index : Fin entities.size) (owner : Nat),
    entities[index].parent = some owner → owner < index
  child_lt : ∀ (index : Fin entities.size) (child : Nat),
    child ∈ entities[index].children → child < entities.size

/-- An entity with those that it is declared in, innermost first. -/
inductive Lineage
  | top (entity : Entity)
  | member (entity : Entity) (parent : Lineage)
  deriving DecidableEq, Repr

namespace Lineage

def entity : Lineage → Entity
  | top entity => entity
  | member entity _ => entity

def parent? : Lineage → Option Lineage
  | top _ => none
  | member _ parent => some parent

end Lineage

namespace Namespace

def ofDecl (decl : NamespaceDeclaration) : Namespace where
  name := decl.name
  version := decl.version
  identifierPrefixes := decl.identifierPrefixes
  symbolPrefixes := decl.symbolPrefixes
  exportedPackages := decl.exportedPackages
  entities := (Declaration.layoutAll none 0 decl.entities).toArray
  parent_lt := by
    intro index owner howner
    have hplaced := Declaration.placed_layoutAll none 0 decl.entities index _
      (List.getElem?_eq_getElem index.isLt)
    have := hplaced.1 owner howner
    simp at this
    omega
  child_lt := by
    intro index child hchild
    have hplaced := Declaration.placed_layoutAll none 0 decl.entities index _
      (List.getElem?_eq_getElem index.isLt)
    have := hplaced.2 child hchild
    simp only [List.size_toArray, Declaration.length_layoutAll]
    omega

abbrev Id (space : Namespace) := Fin space.entities.size

def entity (space : Namespace) (id : space.Id) : Entity :=
  space.entities[id]

def ids (space : Namespace) : List space.Id :=
  List.finRange space.entities.size

def parent? (space : Namespace) (id : space.Id) : Option space.Id :=
  match h : (space.entity id).parent with
  | none => none
  | some owner => some ⟨owner, Nat.lt_trans (space.parent_lt id owner h) id.isLt⟩

theorem parent?_lt {space : Namespace} {id owner : space.Id}
    (h : space.parent? id = some owner) : owner < id := by
  unfold parent? at h
  split at h
  · simp at h
  · rename_i index hindex
    cases h
    exact space.parent_lt id index hindex

def children (space : Namespace) (id : space.Id) : List space.Id :=
  (space.entity id).children.attach.map fun ⟨child, h⟩ => ⟨child, space.child_lt id child h⟩

def lineage (space : Namespace) (id : space.Id) : Lineage :=
  match _h : space.parent? id with
  | none => .top (space.entity id)
  | some owner => .member (space.entity id) (space.lineage owner)
termination_by id.val
decreasing_by exact parent?_lt _h

theorem lineage_top {space : Namespace} {id : space.Id} (h : space.parent? id = none) :
    space.lineage id = .top (space.entity id) := by
  rw [lineage]
  split
  · rfl
  · next hsome => cases h.symm.trans hsome

theorem lineage_member {space : Namespace} {id owner : space.Id}
    (h : space.parent? id = some owner) :
    space.lineage id = .member (space.entity id) (space.lineage owner) := by
  rw [lineage]
  split
  · next hnone => cases h.symm.trans hnone
  · next hsome =>
      cases h.symm.trans hsome
      rfl

def findLast? (space : Namespace) (test : Entity → Bool) : Option space.Id :=
  space.ids.findRev? fun id => test (space.entity id)

/-- The entity of that name that is declared in no other; the last one counts. -/
def get? (space : Namespace) (name : String) : Option space.Id :=
  space.findLast? fun entity => entity.parent.isNone && entity.name == name

def withSymbol? (space : Namespace) (symbol : String) : Option space.Id :=
  space.findLast? fun entity => entity.symbol == some symbol

def child? (space : Namespace) (owner : space.Id) (name : String)
    (test : Entity → Bool) : Option space.Id :=
  (space.children owner).find? fun child =>
    (space.entity child).name == name && test (space.entity child)

end Namespace

end DocMarkup
