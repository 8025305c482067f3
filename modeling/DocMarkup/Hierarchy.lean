import DocMarkup.Repository.Resolution
import DocMarkup.PathTree

/-!
Class hierarchies.

The hierarchy of an entity has its parent classes, the interfaces that they implement, and
above these one base of all interfaces. Classes are known by qualified names, whether the
repository declares them or not, so a class that is reached twice occurs once, and parents
that lead back to a class below them do no harm.
-/

namespace DocMarkup

namespace EntityKind

def parentName? : EntityKind → Option String
  | classType parent _ _ => parent
  | _ => none

end EntityKind

structure ClassNode (repo : Repository) where
  name : String
  entity : Option repo.Ref
  deriving DecidableEq

abbrev ClassId := Nat

structure HierarchyClass (repo : Repository) extends ClassNode repo where
  parents : List ClassId := []
  children : List ClassId := []

/-- Classes in the order in which they are met. -/
structure Hierarchy (repo : Repository) where
  classes : List (HierarchyClass repo) := []
  /-- Where classes are, by their names. -/
  places : List (String × ClassId) := []
  start : ClassId := 0

namespace Repository

variable (repo : Repository)

def namedClass (name : String) : ClassNode repo :=
  ⟨name, repo.lookup? name⟩

def parentNames : List String :=
  repo.namespaces.flatMap fun space =>
    space.entities.toList.filterMap fun entity => entity.kind.parentName?

variable {repo}

theorem parentName_mem {ref : repo.Ref} {name : String}
    (h : ref.kind.parentName? = some name) : name ∈ repo.parentNames := by
  refine List.mem_flatMap.mpr ⟨repo.space ref.space, List.getElem_mem _, ?_⟩
  exact List.mem_filterMap.mpr ⟨ref.entity, by simp [Ref.entity, Namespace.entity], h⟩

/-- Interfaces that the parent class implements already. -/
def inheritedInterfaces (ref : repo.Ref) : List String :=
  match ref.kind.parentName?.bind repo.lookup? with
  | some parent => parent.kind.interfaces
  | none => []

def ownInterfaces (ref : repo.Ref) : List String :=
  ref.kind.interfaces.filter fun interface => interface ∉ inheritedInterfaces ref

end Repository

namespace Hierarchy

variable {repo : Repository}

open Repository

def ids (hierarchy : Hierarchy repo) : List ClassId :=
  List.range hierarchy.classes.length

def class? (hierarchy : Hierarchy repo) (id : ClassId) : Option (HierarchyClass repo) :=
  hierarchy.classes[id]?

def name? (hierarchy : Hierarchy repo) (id : ClassId) : Option String :=
  (hierarchy.class? id).map (·.name)

def parents (hierarchy : Hierarchy repo) (id : ClassId) : List ClassId :=
  ((hierarchy.class? id).map (·.parents)).getD []

def children (hierarchy : Hierarchy repo) (id : ClassId) : List ClassId :=
  ((hierarchy.class? id).map (·.children)).getD []

def lookup? (hierarchy : Hierarchy repo) (name : String) : Option ClassId :=
  hierarchy.places.lookup name

/-- The names that classes were made for. -/
def known (hierarchy : Hierarchy repo) : List String :=
  hierarchy.places.map (·.1)

theorem lookup?_eq_none_iff {hierarchy : Hierarchy repo} {name : String} :
    hierarchy.lookup? name = none ↔ name ∉ hierarchy.known := by
  simp only [lookup?, known, List.lookup_eq_none_iff, List.mem_map, bne_iff_ne]
  constructor
  · rintro h ⟨place, hmem, rfl⟩
    exact h place hmem rfl
  · exact fun h place hmem heq => h ⟨place, hmem, heq.symm⟩

structure Entered (repo : Repository) where
  hierarchy : Hierarchy repo
  id : ClassId
  isNew : Bool

def add (hierarchy : Hierarchy repo) (node : ClassNode repo) : Hierarchy repo :=
  { hierarchy with
    classes := hierarchy.classes ++ [{ toClassNode := node }]
    places := (node.name, hierarchy.classes.length) :: hierarchy.places }

/-- A class that is there already stays as it is. -/
def enter (hierarchy : Hierarchy repo) (node : ClassNode repo) : Entered repo :=
  match hierarchy.lookup? node.name with
  | some id => ⟨hierarchy, id, false⟩
  | none => ⟨hierarchy.add node, hierarchy.classes.length, true⟩

/-- No class is its own parent, and none is a parent twice. -/
def link (hierarchy : Hierarchy repo) (child parent : ClassId) : Hierarchy repo :=
  if child = parent ∨ parent ∈ hierarchy.parents child then hierarchy
  else
    let withParent := hierarchy.classes.modify child fun entry =>
      { entry with parents := entry.parents ++ [parent] }
    { hierarchy with
      classes := withParent.modify parent fun entry =>
        { entry with children := entry.children ++ [child] } }

def addParent (hierarchy : Hierarchy repo) (child : ClassId) (parent : ClassNode repo) :
    Entered repo :=
  let entered := hierarchy.enter parent
  { entered with hierarchy := entered.hierarchy.link child entered.id }

/-- What all interfaces hang under, which need not be declared. -/
def interfaceRoot : ClassNode repo :=
  ⟨"GObject.GInterface", none⟩

def addInterface (child : ClassId) (hierarchy : Hierarchy repo) (interface : String) :
    Hierarchy repo :=
  let added := hierarchy.addParent child (repo.namedClass interface)
  (added.hierarchy.addParent added.id interfaceRoot).hierarchy

def addInterfaces (hierarchy : Hierarchy repo) (ref : repo.Ref) (id : ClassId) :
    Hierarchy repo :=
  (ownInterfaces ref).foldl (addInterface id) hierarchy

@[simp] theorem known_link (hierarchy : Hierarchy repo) (child parent : ClassId) :
    (hierarchy.link child parent).known = hierarchy.known := by
  unfold link
  split <;> rfl

theorem known_enter_of_isNew {hierarchy : Hierarchy repo} {node : ClassNode repo}
    (h : (hierarchy.enter node).isNew = true) :
    node.name ∉ hierarchy.known ∧
      (hierarchy.enter node).hierarchy.known = node.name :: hierarchy.known := by
  unfold enter at h ⊢
  split at h
  · cases h
  · next hnone => exact ⟨lookup?_eq_none_iff.mp hnone, rfl⟩

/-- Adds the classes above a class and the interfaces of all of them. Going up ends at a class that
was met before. The interfaces come on the way back, from the topmost class downwards. -/
def addParents (hierarchy : Hierarchy repo) (ref : repo.Ref) (id : ClassId) : Hierarchy repo :=
  match _h : ref.kind.parentName? with
  | none => hierarchy.addInterfaces ref id
  | some parent =>
      let added := hierarchy.addParent id (repo.namedClass parent)
      match repo.lookup? parent with
      | none => added.hierarchy.addInterfaces ref id
      | some above =>
          if _hnew : added.isNew then
            (addParents added.hierarchy above added.id).addInterfaces ref id
          else added.hierarchy.addInterfaces ref id
termination_by unvisited repo.parentNames hierarchy.known
decreasing_by
  obtain ⟨hnew, hknown⟩ := known_enter_of_isNew _hnew
  rw [addParent, known_link, hknown]
  exact unvisited_cons_lt (parentName_mem _h) hnew

/-- The hierarchy around an entity. -/
def build (ref : repo.Ref) : Hierarchy repo :=
  let entered := enter {} ⟨ref.qualifiedName, some ref⟩
  let started := { entered.hierarchy with start := entered.id }
  let withParents := started.addParents ref entered.id
  if ref.kind.isInterface then (withParents.addParent entered.id interfaceRoot).hierarchy
  else withParents

theorem parents_eq_nil {hierarchy : Hierarchy repo} {id : ClassId} (h : id ∉ hierarchy.ids) :
    hierarchy.parents id = [] := by
  have hlength : hierarchy.classes.length ≤ id := by simpa [ids] using h
  simp [parents, class?, hlength]

/-- Visits the classes of a stack and those above them, and gives the ones without parents. Classes
that were seen before are passed over. -/
def leavesFrom (hierarchy : Hierarchy repo) (seen : List ClassId) : List ClassId → List ClassId
  | [] => []
  | id :: stack =>
      if id ∈ seen then leavesFrom hierarchy seen stack
      else
        let leaves :=
          leavesFrom hierarchy (id :: seen) ((hierarchy.parents id).reverse ++ stack)
        if (hierarchy.parents id).isEmpty then id :: leaves else leaves
termination_by stack => (unvisited hierarchy.ids seen, stack.length)
decreasing_by
  · exact .right _ (Nat.lt_succ_self _)
  · rename_i hnew
    by_cases hmem : id ∈ hierarchy.ids
    · exact .left _ _ (unvisited_cons_lt hmem hnew)
    · rw [parents_eq_nil hmem]
      rcases Nat.lt_or_eq_of_le (unvisited_cons_le hierarchy.ids seen id) with hlt | heq
      · exact .left _ _ hlt
      · rw [heq]
        exact .right _ (Nat.lt_succ_self _)

/-- The classes without parents at or above a class, in the order of classes. -/
def leaves (hierarchy : Hierarchy repo) (id : ClassId) : List ClassId :=
  (hierarchy.leavesFrom [] [id]).mergeSort fun first second => decide (first ≤ second)

def nameOf (hierarchy : Hierarchy repo) (id : ClassId) : String :=
  (hierarchy.name? id).getD ""

/-- The roots above the start, later names first. -/
def roots (hierarchy : Hierarchy repo) : List ClassId :=
  (hierarchy.leaves hierarchy.start).mergeSort fun first second =>
    decide (hierarchy.nameOf second ≤ hierarchy.nameOf first)

def downward (hierarchy : Hierarchy repo) (id : ClassId) : PathTree ClassId :=
  .grow hierarchy.ids hierarchy.children [] id

end Hierarchy

end DocMarkup
