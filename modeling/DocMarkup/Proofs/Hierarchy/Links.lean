import DocMarkup.Proofs.Hierarchy.Chain
import DocMarkup.Proofs.Hierarchy.Graph

/-!
Hierarchies link by link.

By their names, what a hierarchy shows are links from classes to those right above them. Each step
of building it adds some, and what all steps add together can be told from the chain of the entity.
-/

namespace DocMarkup

open Repository

abbrev ParentLink (repo : Repository) := String × ClassNode repo

namespace Hierarchy

variable {repo : Repository} {hierarchy grown : Hierarchy repo} {id child above : ClassId}
  {node : ClassNode repo} {name : String} {links more : ParentLink repo → Prop}

def Shows (hierarchy : Hierarchy repo) (child parent : String) : Prop :=
  ∃ id above, hierarchy.name? id = some child ∧ hierarchy.name? above = some parent ∧
    hierarchy.IsParent id above

theorem mem_names_iff_name? : name ∈ hierarchy.names ↔ ∃ id, hierarchy.name? id = some name := by
  rw [List.mem_iff_getElem?]
  exact exists_congr fun id => by rw [getElem?_names]

theorem Consistent.mem_names_iff (h : hierarchy.Consistent) :
    name ∈ hierarchy.names ↔ ∃ id, hierarchy.lookup? name = some id := by
  rw [mem_names_iff_name?]
  exact exists_congr fun id => (h.lookup?_iff name id).symm

theorem GrowsTo.name? (h : hierarchy.GrowsTo grown) (hconsistent : hierarchy.Consistent)
    (hgrown : grown.Consistent) (hname : hierarchy.name? id = some name) :
    grown.name? id = some name := by
  rw [← hconsistent.lookup?_iff] at hname
  rw [← hgrown.lookup?_iff]
  exact h.lookup? name id hname

theorem GrowsTo.name?_eq (h : hierarchy.GrowsTo grown) (hconsistent : hierarchy.Consistent)
    (hgrown : grown.Consistent) (hid : id < hierarchy.classes.length) :
    hierarchy.name? id = grown.name? id := by
  obtain ⟨name, hname⟩ := Option.isSome_iff_exists.mp (isSome_name?_iff.mpr hid)
  rw [hname, h.name? hconsistent hgrown hname]

/-- The second hierarchy has the classes and edges of the first and those of some links. -/
structure Adds (hierarchy grown : Hierarchy repo) (links : ParentLink repo → Prop) : Prop where
  consistent : grown.Consistent
  grows : hierarchy.GrowsTo grown
  names : ∀ name, name ∈ grown.names ↔
    name ∈ hierarchy.names ∨ ∃ link, links link ∧ link.2.name = name
  edges : ∀ child parent, grown.Shows child parent ↔
    hierarchy.Shows child parent ∨
      child ≠ parent ∧ ∃ above, links (child, above) ∧ above.name = parent

theorem Adds.refl (h : hierarchy.Consistent) : Adds hierarchy hierarchy fun _ => False where
  consistent := h
  grows := .refl hierarchy
  names := by simp
  edges := by simp

theorem Adds.trans {middle : Hierarchy repo} (h : Adds hierarchy middle links)
    (h' : Adds middle grown more) : Adds hierarchy grown fun link => links link ∨ more link where
  consistent := h'.consistent
  grows := h.grows.trans h'.grows
  names name := by
    rw [h'.names, h.names, or_assoc]
    simp only [or_and_right, exists_or]
  edges child parent := by
    rw [h'.edges, h.edges, or_assoc, ← and_or_left]
    simp only [or_and_right, exists_or]

theorem Adds.congr (h : Adds hierarchy grown links) (heq : ∀ link, links link ↔ more link) :
    Adds hierarchy grown more := by
  rwa [show more = links from funext fun link => propext (heq link).symm]

theorem lookup?_addParent :
    (hierarchy.addParent child node).hierarchy.lookup? name =
      if name = node.name then some (hierarchy.addParent child node).id
      else hierarchy.lookup? name := by
  rw [addParent, lookup?_link, lookup?_enter]

theorem known_addParent_of_new (hnew : node.name ∉ hierarchy.known) :
    (hierarchy.addParent child node).hierarchy.known = node.name :: hierarchy.known := by
  rw [addParent, known_link]
  exact (known_enter_of_isNew (isNew_enter_iff.mpr hnew)).2

theorem Consistent.mem_names_addParent (h : hierarchy.Consistent)
    (hchild : child < hierarchy.classes.length) :
    name ∈ (hierarchy.addParent child node).hierarchy.names ↔
      name ∈ hierarchy.names ∨ node.name = name := by
  rw [(h.addParent hchild node).mem_names_iff, h.mem_names_iff, lookup?_addParent]
  split
  · next heq => simp [heq]
  · next hne => simp [Ne.symm hne]

theorem Consistent.name?_addParent (h : hierarchy.Consistent)
    (hchild : child < hierarchy.classes.length) :
    (hierarchy.addParent child node).hierarchy.name? (hierarchy.addParent child node).id =
      some node.name := by
  rw [← (h.addParent hchild node).lookup?_iff, lookup?_addParent, if_pos rfl]

theorem Consistent.shows_addParent (h : hierarchy.Consistent)
    (hname : hierarchy.name? child = some name) {below parent : String} :
    (hierarchy.addParent child node).hierarchy.Shows below parent ↔
      hierarchy.Shows below parent ∨ below ≠ parent ∧ below = name ∧ node.name = parent := by
  have hchild := lt_of_name? hname
  have hgrown := h.addParent hchild node
  have hadded : (hierarchy.addParent child node).hierarchy.name? child = some name :=
    addParent_grows.name? h hgrown hname
  have habove : (hierarchy.addParent child node).hierarchy.name?
      (hierarchy.addParent child node).id = some node.name := h.name?_addParent hchild
  constructor
  · rintro ⟨id, above, hbelow, hparent, hlink⟩
    rcases (isParent_addParent_iff hchild).mp hlink with hlink | ⟨rfl, rfl, hne⟩
    · rw [← addParent_grows.name?_eq h hgrown (lt_of_mem_parents hlink)] at hbelow
      rw [← addParent_grows.name?_eq h hgrown (h.parents_lt id above hlink)] at hparent
      exact .inl ⟨id, above, hbelow, hparent, hlink⟩
    · cases hbelow.symm.trans hadded
      cases hparent.symm.trans habove
      refine .inr ⟨fun heq => hne ?_, rfl, rfl⟩
      rw [← heq, ← hgrown.lookup?_iff] at habove
      rw [← hgrown.lookup?_iff, habove] at hadded
      exact (Option.some.inj hadded).symm
  · rintro (⟨id, above, hbelow, hparent, hlink⟩ | ⟨hne, rfl, rfl⟩)
    · exact ⟨id, above, addParent_grows.name? h hgrown hbelow,
        addParent_grows.name? h hgrown hparent, (isParent_addParent_iff hchild).mpr (.inl hlink)⟩
    · refine ⟨child, _, hadded, habove, (isParent_addParent_iff hchild).mpr (.inr ⟨rfl, rfl, ?_⟩)⟩
      intro heq
      rw [← heq, hadded] at habove
      exact hne (Option.some.inj habove)

theorem Consistent.adds_addParent (h : hierarchy.Consistent)
    (hname : hierarchy.name? child = some name) (node : ClassNode repo) :
    Adds hierarchy (hierarchy.addParent child node).hierarchy fun link => link = (name, node) where
  consistent := h.addParent (lt_of_name? hname) node
  grows := addParent_grows
  names other := by simp [h.mem_names_addParent (lt_of_name? hname)]
  edges below parent := by
    rw [h.shows_addParent hname]
    simp [and_assoc]

theorem Consistent.adds_addInterface (h : hierarchy.Consistent)
    (hname : hierarchy.name? child = some name) (interface : String) :
    Adds hierarchy (hierarchy.addInterface child interface) fun link =>
      link = (name, repo.namedClass interface) ∨ link = (interface, interfaceRoot) := by
  have hadded := h.adds_addParent hname (repo.namedClass interface)
  exact hadded.trans
    (hadded.consistent.adds_addParent (h.name?_addParent (lt_of_name? hname)) interfaceRoot)

/-- What is put above what on account of a class: the parent, the interfaces that the parent does
not implement yet, and the base of all interfaces. -/
inductive LinkFrom (item : String × repo.Ref) : ParentLink repo → Prop
  | parent {parent : String} (hparent : item.2.kind.parentName? = some parent) :
      LinkFrom item (item.1, repo.namedClass parent)
  | interface {interface : String} (hown : interface ∈ ownInterfaces item.2) :
      LinkFrom item (item.1, repo.namedClass interface)
  | base {interface : String} (hown : interface ∈ ownInterfaces item.2) :
      LinkFrom item (interface, interfaceRoot)

theorem Consistent.adds_addInterfaces (h : hierarchy.Consistent)
    (hname : hierarchy.name? id = some name) (ref : repo.Ref) :
    Adds hierarchy (hierarchy.addInterfaces ref id) fun link =>
      ∃ interface ∈ ownInterfaces ref,
        link = (name, repo.namedClass interface) ∨ link = (interface, interfaceRoot) := by
  rw [addInterfaces]
  induction ownInterfaces ref generalizing hierarchy with
  | nil => exact (Adds.refl h).congr (by simp)
  | cons interface rest ih =>
      have hadded := h.adds_addInterface hname interface
      have hrest := ih hadded.consistent (hadded.grows.name? h hadded.consistent hname)
      exact (hadded.trans hrest).congr fun link => by rw [List.exists_mem_cons_iff]

theorem linkFrom_iff {ref : repo.Ref} {link : ParentLink repo} :
    LinkFrom (name, ref) link ↔
      (∃ parent, ref.kind.parentName? = some parent ∧ link = (name, repo.namedClass parent)) ∨
        ∃ interface ∈ ownInterfaces ref,
          link = (name, repo.namedClass interface) ∨ link = (interface, interfaceRoot) := by
  constructor
  · intro h
    cases h with
    | parent hparent => exact .inl ⟨_, hparent, rfl⟩
    | interface hown => exact .inr ⟨_, hown, .inl rfl⟩
    | base hown => exact .inr ⟨_, hown, .inr rfl⟩
  · rintro (⟨parent, hparent, rfl⟩ | ⟨interface, hown, rfl | rfl⟩)
    · exact .parent hparent
    · exact .interface hown
    · exact .base hown

/-- Going up adds the links of the classes on the chain. What was met before is what has a place
already, so the chain ends where going up does. -/
theorem Consistent.adds_addParents (h : hierarchy.Consistent) {ref : repo.Ref}
    (hname : hierarchy.name? id = some name) :
    Adds hierarchy (hierarchy.addParents ref id) fun link =>
      ∃ item ∈ repo.chain hierarchy.known name ref, LinkFrom item link := by
  induction hierarchy, ref, id using addParents_elim generalizing name with
  | top hierarchy ref id hkind =>
      refine (h.adds_addInterfaces hname ref).congr fun link => ?_
      simp [chain_of_top hkind, linkFrom_iff, hkind]
  | last hierarchy ref id parent hkind hstop =>
      have hadded := h.adds_addParent hname (repo.namedClass parent)
      have hinterfaces := hadded.consistent.adds_addInterfaces
        (hadded.grows.name? h hadded.consistent hname) ref
      refine (hadded.trans hinterfaces).congr fun link => ?_
      simp [chain_of_last hkind hstop, linkFrom_iff, hkind]
  | more hierarchy ref id parent above added hkind hnew habove hadded ih =>
      subst hadded
      have hadded := h.adds_addParent hname (repo.namedClass parent)
      have hupper := ih hadded.consistent (h.name?_addParent (lt_of_name? hname))
      have hgrows := hadded.grows.trans hupper.grows
      have hinterfaces := hupper.consistent.adds_addInterfaces
        (hgrows.name? h hupper.consistent hname) ref
      refine ((hadded.trans hupper).trans hinterfaces).congr fun link => ?_
      have hparent : (∃ other, ref.kind.parentName? = some other ∧
          link = (name, repo.namedClass other)) ↔ link = (name, repo.namedClass parent) := by
        simp [hkind]
      rw [chain_of_more hkind hnew habove, List.exists_mem_cons_iff, linkFrom_iff, hparent,
        known_addParent_of_new hnew]
      exact or_right_comm

def startClass (ref : repo.Ref) : ClassNode repo :=
  ⟨ref.qualifiedName, some ref⟩

def declaredChain (ref : repo.Ref) : List (String × repo.Ref) :=
  repo.chain [ref.qualifiedName] ref.qualifiedName ref

def LinkOf (ref : repo.Ref) (link : ParentLink repo) : Prop :=
  ∃ item ∈ declaredChain ref, LinkFrom item link

variable {ref : repo.Ref}

theorem adds_build (hkind : ref.kind.isInterface = false) :
    Adds (started ref) (build ref) (LinkOf ref) := by
  rw [build_eq, hkind, if_neg Bool.false_ne_true]
  exact (wellFormed_started ref).toConsistent.adds_addParents rfl

theorem mem_names_build (hkind : ref.kind.isInterface = false) :
    name ∈ (build ref).names ↔
      ref.qualifiedName = name ∨ ∃ link, LinkOf ref link ∧ link.2.name = name := by
  have hstarted : name ∈ (started ref).names ↔ ref.qualifiedName = name := by
    simp [names, started, eq_comm]
  rw [(adds_build hkind).names, hstarted]

theorem not_shows_started {child parent : String} : ¬ (started ref).Shows child parent := by
  rintro ⟨id, above, -, -, hlink⟩
  have hid : id = 0 := Nat.lt_one_iff.mp (lt_of_mem_parents hlink)
  subst hid
  cases hlink

theorem shows_build (hkind : ref.kind.isInterface = false) {child parent : String} :
    (build ref).Shows child parent ↔
      child ≠ parent ∧ ∃ above, LinkOf ref (child, above) ∧ above.name = parent := by
  rw [(adds_build hkind).edges, or_iff_right not_shows_started]

end Hierarchy

end DocMarkup
