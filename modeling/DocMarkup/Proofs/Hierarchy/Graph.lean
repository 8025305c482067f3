import Mathlib.Data.List.Nodup
import Mathlib.Logic.Relation
import DocMarkup.Hierarchy

/-!
Hierarchies as graphs.

Classes are found by a table of names, and each has a list of the classes right above it and one
of those right below it. Looking up or making a class and linking two classes keep the table and
the lists in step. So whatever is said to be the parent of a class, one that is missing, the class
itself or one below it, the hierarchy of an entity is a graph in which all classes are the start or
above it.
-/

namespace DocMarkup

open Repository Relation

namespace Hierarchy

variable {repo : Repository} {hierarchy : Hierarchy repo} {node : ClassNode repo}
  {child parent id : ClassId} {name : String}

def names (hierarchy : Hierarchy repo) : List String :=
  hierarchy.classes.map (·.name)

theorem getElem?_names : hierarchy.names[id]? = hierarchy.name? id :=
  List.getElem?_map

theorem isSome_name?_iff : (hierarchy.name? id).isSome ↔ id < hierarchy.classes.length := by
  simp [name?, class?]

theorem lt_of_name? (h : hierarchy.name? id = some name) : id < hierarchy.classes.length :=
  isSome_name?_iff.mp (h ▸ rfl)

theorem lt_of_mem_parents (h : parent ∈ hierarchy.parents child) :
    child < hierarchy.classes.length := by
  by_contra hchild
  rw [parents_eq_nil (by simpa [ids] using hchild)] at h
  cases h

theorem class?_add :
    (hierarchy.add node).class? id =
      if id = hierarchy.classes.length then some { toClassNode := node }
      else hierarchy.class? id := by
  rcases Nat.lt_trichotomy id hierarchy.classes.length with hlt | rfl | hgt
  · simp [class?, add, List.getElem?_append_left hlt, Nat.ne_of_lt hlt]
  · simp [class?, add]
  · have hadded : (hierarchy.add node).classes.length ≤ id := by
      simpa [add] using Nat.succ_le_of_lt hgt
    simp [class?, hadded, Nat.ne_of_gt hgt, Nat.le_of_lt hgt]

theorem name?_add :
    (hierarchy.add node).name? id =
      if id = hierarchy.classes.length then some node.name else hierarchy.name? id := by
  rw [name?, class?_add]
  split <;> rfl

@[simp] theorem parents_add : (hierarchy.add node).parents id = hierarchy.parents id := by
  rw [parents, class?_add]
  split
  · next hid => simp [parents, class?, hid]
  · rfl

@[simp] theorem children_add : (hierarchy.add node).children id = hierarchy.children id := by
  rw [children, class?_add]
  split
  · next hid => simp [children, class?, hid]
  · rfl

theorem lookup?_add :
    (hierarchy.add node).lookup? name =
      if name = node.name then some hierarchy.classes.length else hierarchy.lookup? name := by
  rw [lookup?, add, List.lookup_cons]
  split
  · next heq => rw [if_pos (eq_of_beq heq)]
  · next hne => rw [if_neg (ne_of_beq_false hne), lookup?]

@[simp] theorem length_link :
    (hierarchy.link child parent).classes.length = hierarchy.classes.length := by
  unfold link
  split <;> simp

@[simp] theorem start_link : (hierarchy.link child parent).start = hierarchy.start := by
  unfold link
  split <;> rfl

@[simp] theorem lookup?_link :
    (hierarchy.link child parent).lookup? name = hierarchy.lookup? name := by
  unfold link
  split <;> rfl

theorem link_of_known (h : child = parent ∨ parent ∈ hierarchy.parents child) :
    hierarchy.link child parent = hierarchy := by
  rw [link, if_pos h]

theorem class?_link (h : ¬ (child = parent ∨ parent ∈ hierarchy.parents child)) :
    (hierarchy.link child parent).class? id = (hierarchy.class? id).map fun entry =>
      { entry with
        parents := if id = child then entry.parents ++ [parent] else entry.parents
        children := if id = parent then entry.children ++ [child] else entry.children } := by
  rw [link, if_neg h]
  simp only [class?, List.getElem?_modify, Option.map_eq_map, Option.map_map]
  refine Option.map_congr fun entry _ => ?_
  simp only [Function.comp_apply, @eq_comm _ child, @eq_comm _ parent]
  split <;> split <;> rfl

@[simp] theorem name?_link : (hierarchy.link child parent).name? id = hierarchy.name? id := by
  by_cases h : child = parent ∨ parent ∈ hierarchy.parents child
  · rw [link_of_known h]
  · rw [name?, class?_link h, Option.map_map]
    rfl

theorem parents_link (hchild : child < hierarchy.classes.length) :
    (hierarchy.link child parent).parents id =
      if id = child ∧ ¬ (child = parent ∨ parent ∈ hierarchy.parents child) then
        hierarchy.parents id ++ [parent]
      else hierarchy.parents id := by
  by_cases h : child = parent ∨ parent ∈ hierarchy.parents child
  · rw [link_of_known h, if_neg fun hlinked => hlinked.2 h]
  · rw [parents, class?_link h, Option.map_map]
    by_cases hid : id = child
    · subst hid
      rw [if_pos ⟨rfl, h⟩]
      simp [parents, class?, hchild]
    · simp [parents, hid, Function.comp_def]

theorem children_link (hparent : parent < hierarchy.classes.length) :
    (hierarchy.link child parent).children id =
      if id = parent ∧ ¬ (child = parent ∨ parent ∈ hierarchy.parents child) then
        hierarchy.children id ++ [child]
      else hierarchy.children id := by
  by_cases h : child = parent ∨ parent ∈ hierarchy.parents child
  · rw [link_of_known h, if_neg fun hlinked => hlinked.2 h]
  · rw [children, class?_link h, Option.map_map]
    by_cases hid : id = parent
    · subst hid
      rw [if_pos ⟨rfl, h⟩]
      simp [children, class?, hparent]
    · simp [children, hid, Function.comp_def]

theorem enter_of_lookup? (h : hierarchy.lookup? node.name = some id) :
    hierarchy.enter node = ⟨hierarchy, id, false⟩ := by
  rw [enter, h]

theorem enter_of_new (h : hierarchy.lookup? node.name = none) :
    hierarchy.enter node = ⟨hierarchy.add node, hierarchy.classes.length, true⟩ := by
  rw [enter, h]

theorem isNew_enter_iff : (hierarchy.enter node).isNew = true ↔ node.name ∉ hierarchy.known := by
  rw [← lookup?_eq_none_iff]
  cases hfound : hierarchy.lookup? node.name with
  | none => simp [enter_of_new hfound]
  | some id => simp [enter_of_lookup? hfound]

theorem lookup?_enter :
    (hierarchy.enter node).hierarchy.lookup? name =
      if name = node.name then some (hierarchy.enter node).id else hierarchy.lookup? name := by
  cases hfound : hierarchy.lookup? node.name with
  | none => rw [enter_of_new hfound, lookup?_add]
  | some id =>
      rw [enter_of_lookup? hfound]
      split
      · next heq => rw [heq, hfound]
      · rfl

@[simp] theorem parents_enter :
    (hierarchy.enter node).hierarchy.parents id = hierarchy.parents id := by
  unfold enter
  split <;> simp

@[simp] theorem start_enter : (hierarchy.enter node).hierarchy.start = hierarchy.start := by
  unfold enter
  split <;> rfl

theorem length_le_enter :
    hierarchy.classes.length ≤ (hierarchy.enter node).hierarchy.classes.length := by
  unfold enter
  split <;> simp [add]

/-- The table of names and the lists of parents and children are in step. -/
structure Consistent (hierarchy : Hierarchy repo) : Prop where
  lookup?_iff : ∀ name id, hierarchy.lookup? name = some id ↔ hierarchy.name? id = some name
  children_iff : ∀ child parent,
    parent ∈ hierarchy.parents child ↔ child ∈ hierarchy.children parent
  nodup_parents : ∀ id, (hierarchy.parents id).Nodup
  nodup_children : ∀ id, (hierarchy.children id).Nodup
  irreflexive : ∀ id, id ∉ hierarchy.parents id
  parents_lt : ∀ child, ∀ parent ∈ hierarchy.parents child, parent < hierarchy.classes.length

theorem Consistent.add (h : hierarchy.Consistent) (hnew : hierarchy.lookup? node.name = none) :
    (hierarchy.add node).Consistent where
  lookup?_iff name id := by
    have hvacant : hierarchy.name? hierarchy.classes.length = none := by simp [name?, class?]
    have hold : hierarchy.name? id ≠ some node.name := by
      rw [Ne, ← h.lookup?_iff, hnew]
      simp
    rw [lookup?_add, name?_add]
    by_cases hname : name = node.name <;> by_cases hid : id = hierarchy.classes.length
    · simp [hname, hid]
    · rw [if_pos hname, if_neg hid, hname]
      exact iff_of_false (fun heq => hid (Option.some.inj heq).symm) hold
    · rw [if_neg hname, if_pos hid, h.lookup?_iff, hid, hvacant]
      exact iff_of_false (by simp) fun heq => hname (Option.some.inj heq).symm
    · rw [if_neg hname, if_neg hid, h.lookup?_iff]
  children_iff child parent := by simpa using h.children_iff child parent
  nodup_parents id := by simpa using h.nodup_parents id
  nodup_children id := by simpa using h.nodup_children id
  irreflexive id := by simpa using h.irreflexive id
  parents_lt child parent hmem := by
    rw [parents_add] at hmem
    exact Nat.lt_of_lt_of_le (h.parents_lt child parent hmem) (by simp [Hierarchy.add])

theorem mem_parents_link (hchild : child < hierarchy.classes.length) {below above : ClassId} :
    above ∈ (hierarchy.link child parent).parents below ↔
      above ∈ hierarchy.parents below ∨ (below = child ∧ above = parent ∧ child ≠ parent) := by
  rw [parents_link hchild]
  split
  · next hlinked =>
      obtain ⟨rfl, hnew⟩ := hlinked
      simp [(not_or.mp hnew).1]
  · next hold =>
      refine ⟨.inl, ?_⟩
      rintro (hmem | ⟨rfl, rfl, hne⟩)
      · exact hmem
      · by_contra hmem
        exact hold ⟨rfl, not_or.mpr ⟨hne, hmem⟩⟩

theorem Consistent.mem_children_link (h : hierarchy.Consistent)
    (hparent : parent < hierarchy.classes.length) {below above : ClassId} :
    below ∈ (hierarchy.link child parent).children above ↔
      below ∈ hierarchy.children above ∨ (below = child ∧ above = parent ∧ child ≠ parent) := by
  rw [children_link hparent]
  split
  · next hlinked =>
      obtain ⟨rfl, hnew⟩ := hlinked
      simp [(not_or.mp hnew).1]
  · next hold =>
      refine ⟨.inl, ?_⟩
      rintro (hmem | ⟨rfl, rfl, hne⟩)
      · exact hmem
      · by_contra hmem
        -- `link` looks at the parents only; the lists being in step, the child is new as well.
        rw [← h.children_iff] at hmem
        exact hold ⟨rfl, not_or.mpr ⟨hne, hmem⟩⟩

theorem Consistent.link (h : hierarchy.Consistent) (hchild : child < hierarchy.classes.length)
    (hparent : parent < hierarchy.classes.length) : (hierarchy.link child parent).Consistent where
  lookup?_iff name id := by rw [lookup?_link, name?_link, h.lookup?_iff]
  children_iff below above := by
    rw [mem_parents_link hchild, h.mem_children_link hparent, h.children_iff]
  nodup_parents id := by
    rw [parents_link hchild]
    split
    · next hlinked =>
        obtain ⟨rfl, hnew⟩ := hlinked
        simpa using (h.nodup_parents id).concat (not_or.mp hnew).2
    · exact h.nodup_parents id
  nodup_children id := by
    rw [children_link hparent]
    split
    · next hlinked =>
        obtain ⟨rfl, hnew⟩ := hlinked
        have hchildren := (not_or.mp hnew).2
        rw [h.children_iff] at hchildren
        simpa using (h.nodup_children id).concat hchildren
    · exact h.nodup_children id
  irreflexive id hmem := by
    rcases (mem_parents_link hchild).mp hmem with hmem | ⟨rfl, heq, hne⟩
    · exact h.irreflexive id hmem
    · exact hne heq
  parents_lt below above hmem := by
    rw [length_link]
    rcases (mem_parents_link hchild).mp hmem with hmem | ⟨-, rfl, -⟩
    · exact h.parents_lt below above hmem
    · exact hparent

theorem Consistent.enter (h : hierarchy.Consistent) :
    (hierarchy.enter node).hierarchy.Consistent := by
  cases hfound : hierarchy.lookup? node.name with
  | none =>
      rw [enter_of_new hfound]
      exact h.add hfound
  | some id =>
      rw [enter_of_lookup? hfound]
      exact h

theorem Consistent.name?_enter (h : hierarchy.Consistent) :
    (hierarchy.enter node).hierarchy.name? (hierarchy.enter node).id = some node.name := by
  rw [← h.enter.lookup?_iff, lookup?_enter, if_pos rfl]

theorem lt_or_eq_of_lt_enter (h : id < (hierarchy.enter node).hierarchy.classes.length) :
    id < hierarchy.classes.length ∨ id = (hierarchy.enter node).id := by
  cases hfound : hierarchy.lookup? node.name with
  | none =>
      rw [enter_of_new hfound] at h ⊢
      exact Nat.lt_or_eq_of_le (Nat.lt_succ_iff.mp (by simpa [add] using h))
  | some id =>
      rw [enter_of_lookup? hfound] at h
      exact .inl h

structure GrowsTo (hierarchy grown : Hierarchy repo) : Prop where
  start : grown.start = hierarchy.start
  lookup? : ∀ name id, hierarchy.lookup? name = some id → grown.lookup? name = some id

theorem GrowsTo.refl (hierarchy : Hierarchy repo) : hierarchy.GrowsTo hierarchy :=
  ⟨rfl, fun _ _ h => h⟩

theorem GrowsTo.trans {first second third : Hierarchy repo} (h : first.GrowsTo second)
    (h' : second.GrowsTo third) : first.GrowsTo third where
  start := h'.start.trans h.start
  lookup? name id hfound := h'.lookup? name id (h.lookup? name id hfound)

theorem GrowsTo.lt {grown : Hierarchy repo} (h : hierarchy.GrowsTo grown)
    (hconsistent : hierarchy.Consistent) (hgrown : grown.Consistent)
    (hid : id < hierarchy.classes.length) : id < grown.classes.length := by
  obtain ⟨name, hname⟩ := Option.isSome_iff_exists.mp (isSome_name?_iff.mpr hid)
  rw [← hconsistent.lookup?_iff] at hname
  exact lt_of_name? ((hgrown.lookup?_iff name id).mp (h.lookup? name id hname))

theorem addParent_grows : hierarchy.GrowsTo (hierarchy.addParent child node).hierarchy where
  start := by simp [addParent]
  lookup? name id hfound := by
    rw [addParent, lookup?_link, lookup?_enter]
    split
    · next heq =>
        rw [heq] at hfound
        rw [enter_of_lookup? hfound]
    · exact hfound

theorem addInterface_grows {interface : String} :
    hierarchy.GrowsTo (hierarchy.addInterface child interface) :=
  addParent_grows.trans addParent_grows

theorem addInterfaces_grows {ref : repo.Ref} :
    hierarchy.GrowsTo (hierarchy.addInterfaces ref id) := by
  rw [addInterfaces]
  induction ownInterfaces ref generalizing hierarchy with
  | nil => exact .refl hierarchy
  | cons interface rest ih => exact addInterface_grows.trans ih

/-- Going up ends at a class that names no parent, at one whose parent is undeclared or was met
before, or it goes on with the parent. -/
@[elab_as_elim]
theorem addParents_elim {holds : Hierarchy repo → repo.Ref → ClassId → Hierarchy repo → Prop}
    (top : ∀ hierarchy ref id, ref.kind.parentName? = none →
      holds hierarchy ref id (hierarchy.addInterfaces ref id))
    (last : ∀ hierarchy ref id parent, ref.kind.parentName? = some parent →
      (parent ∈ hierarchy.known ∨ repo.lookup? parent = none) →
      holds hierarchy ref id
        ((hierarchy.addParent id (repo.namedClass parent)).hierarchy.addInterfaces ref id))
    (more : ∀ hierarchy ref id parent above added,
      ref.kind.parentName? = some parent → parent ∉ hierarchy.known →
      repo.lookup? parent = some above →
      added = hierarchy.addParent id (repo.namedClass parent) →
      holds added.hierarchy above added.id (added.hierarchy.addParents above added.id) →
      holds hierarchy ref id
        ((added.hierarchy.addParents above added.id).addInterfaces ref id))
    (hierarchy : Hierarchy repo) (ref : repo.Ref) (id : ClassId) :
    holds hierarchy ref id (hierarchy.addParents ref id) := by
  induction hierarchy, ref, id using addParents.induct with
  | case1 hierarchy ref id hkind =>
      rw [addParents, hkind]
      exact top hierarchy ref id hkind
  | case2 hierarchy ref id parent hkind hlookup =>
      rw [addParents, hkind]
      simp only [hlookup]
      exact last hierarchy ref id parent hkind (.inr hlookup)
  | case3 hierarchy ref id parent hkind added above hlookup hnew ih =>
      rw [addParents, hkind]
      simp only [hlookup]
      rw [dif_pos hnew]
      exact more hierarchy ref id parent above added hkind (isNew_enter_iff.mp hnew) hlookup rfl ih
  | case4 hierarchy ref id parent hkind added above hlookup hknown =>
      rw [addParents, hkind]
      simp only [hlookup]
      rw [dif_neg hknown]
      refine last hierarchy ref id parent hkind (.inl ?_)
      by_contra hnew
      exact hknown (isNew_enter_iff.mpr hnew)

theorem addParents_grows {ref : repo.Ref} : hierarchy.GrowsTo (hierarchy.addParents ref id) := by
  induction hierarchy, ref, id using addParents_elim with
  | top hierarchy ref id hkind => exact addInterfaces_grows
  | last hierarchy ref id parent hkind hstop => exact addParent_grows.trans addInterfaces_grows
  | more hierarchy ref id parent above added hkind hnew hlookup hadded ih =>
      subst hadded
      exact (addParent_grows.trans ih).trans addInterfaces_grows

def IsParent (hierarchy : Hierarchy repo) (child parent : ClassId) : Prop :=
  parent ∈ hierarchy.parents child

instance (hierarchy : Hierarchy repo) : DecidableRel hierarchy.IsParent :=
  fun child parent => inferInstanceAs (Decidable (parent ∈ hierarchy.parents child))

/-- A graph of classes that are told apart by their names, all of which are above the start. -/
structure WellFormed (hierarchy : Hierarchy repo) : Prop extends Consistent hierarchy where
  nodup_names : hierarchy.names.Nodup
  children_lt : ∀ parent, ∀ child ∈ hierarchy.children parent, child < hierarchy.classes.length
  start_lt : hierarchy.start < hierarchy.classes.length
  reached : ∀ id < hierarchy.classes.length,
    ReflTransGen hierarchy.IsParent hierarchy.start id

theorem Consistent.nodup_names (h : hierarchy.Consistent) : hierarchy.names.Nodup := by
  rw [List.nodup_iff_getElem?_ne_getElem?]
  intro first second hlt hsecond heq
  rw [names, List.length_map, ← isSome_name?_iff] at hsecond
  obtain ⟨name, hname⟩ := Option.isSome_iff_exists.mp hsecond
  rw [getElem?_names, getElem?_names, hname, ← h.lookup?_iff] at heq
  rw [← h.lookup?_iff, heq] at hname
  exact Nat.ne_of_lt hlt (Option.some.inj hname)

theorem Consistent.wellFormed (h : hierarchy.Consistent)
    (hstart : hierarchy.start < hierarchy.classes.length)
    (hreached : ∀ id < hierarchy.classes.length,
      ReflTransGen hierarchy.IsParent hierarchy.start id) : hierarchy.WellFormed :=
  { h with
    nodup_names := h.nodup_names
    children_lt := fun _ _ hmem => lt_of_mem_parents ((h.children_iff _ _).mpr hmem)
    start_lt := hstart
    reached := hreached }

theorem Consistent.addParent (h : hierarchy.Consistent)
    (hchild : child < hierarchy.classes.length) (node : ClassNode repo) :
    (hierarchy.addParent child node).hierarchy.Consistent :=
  h.enter.link (Nat.lt_of_lt_of_le hchild length_le_enter) (lt_of_name? h.name?_enter)

theorem Consistent.lt_addParent (h : hierarchy.Consistent) (child : ClassId)
    (node : ClassNode repo) :
    (hierarchy.addParent child node).id <
      (hierarchy.addParent child node).hierarchy.classes.length := by
  rw [Hierarchy.addParent, length_link]
  exact lt_of_name? h.name?_enter

theorem isParent_addParent_iff (hchild : child < hierarchy.classes.length)
    {below above : ClassId} :
    (hierarchy.addParent child node).hierarchy.IsParent below above ↔
      hierarchy.IsParent below above ∨
        (below = child ∧ above = (hierarchy.addParent child node).id ∧
          child ≠ (hierarchy.addParent child node).id) := by
  rw [IsParent, addParent, mem_parents_link (Nat.lt_of_lt_of_le hchild length_le_enter),
    parents_enter, IsParent]

theorem WellFormed.addParent (h : hierarchy.WellFormed)
    (hchild : child < hierarchy.classes.length) (node : ClassNode repo) :
    (hierarchy.addParent child node).hierarchy.WellFormed := by
  have hconsistent := h.toConsistent.addParent hchild node
  -- Links only come to those that are there, so what was reached still is.
  have hreached : ∀ id < hierarchy.classes.length,
      ReflTransGen (hierarchy.addParent child node).hierarchy.IsParent hierarchy.start id :=
    fun id hid => ReflTransGen.mono
      (fun _ _ hparent => (isParent_addParent_iff hchild).mpr (.inl hparent)) _ _ (h.reached id hid)
  refine hconsistent.wellFormed ?_ fun id hid => ?_
  · rw [addParent_grows.start]
    exact addParent_grows.lt h.toConsistent hconsistent h.start_lt
  · rw [addParent_grows.start]
    rw [Hierarchy.addParent, length_link] at hid
    rcases lt_or_eq_of_lt_enter hid with hold | rfl
    · exact hreached id hold
    · by_cases hsame : child = (hierarchy.enter node).id
      · exact hsame ▸ hreached child hchild
      · exact (hreached child hchild).tail
          ((isParent_addParent_iff hchild).mpr (.inr ⟨rfl, rfl, hsame⟩))

theorem WellFormed.addInterface (h : hierarchy.WellFormed)
    (hchild : child < hierarchy.classes.length) (interface : String) :
    (hierarchy.addInterface child interface).WellFormed :=
  (h.addParent hchild (repo.namedClass interface)).addParent
    (h.toConsistent.lt_addParent child _) interfaceRoot

theorem WellFormed.addInterfaces (h : hierarchy.WellFormed) (hid : id < hierarchy.classes.length)
    (ref : repo.Ref) : (hierarchy.addInterfaces ref id).WellFormed := by
  rw [Hierarchy.addInterfaces]
  induction ownInterfaces ref generalizing hierarchy with
  | nil => exact h
  | cons interface rest ih =>
      have hadded := h.addInterface hid interface
      exact ih hadded (addInterface_grows.lt h.toConsistent hadded.toConsistent hid)

theorem WellFormed.addParents {ref : repo.Ref} (h : hierarchy.WellFormed)
    (hid : id < hierarchy.classes.length) : (hierarchy.addParents ref id).WellFormed := by
  induction hierarchy, ref, id using addParents_elim with
  | top hierarchy ref id hkind => exact h.addInterfaces hid ref
  | last hierarchy ref id parent hkind hstop =>
      have hadded := h.addParent hid (repo.namedClass parent)
      exact hadded.addInterfaces (addParent_grows.lt h.toConsistent hadded.toConsistent hid) ref
  | more hierarchy ref id parent above added hkind hnew hlookup hadded ih =>
      subst hadded
      have hadded := h.addParent hid (repo.namedClass parent)
      have hupper := ih hadded (h.toConsistent.lt_addParent id _)
      have hid := addParent_grows.lt h.toConsistent hadded.toConsistent hid
      exact hupper.addInterfaces
        (addParents_grows.lt hadded.toConsistent hupper.toConsistent hid) ref

def started (ref : repo.Ref) : Hierarchy repo :=
  { classes := [{ name := ref.qualifiedName, entity := some ref }]
    places := [(ref.qualifiedName, 0)] }

theorem build_eq (ref : repo.Ref) :
    build ref =
      if ref.kind.isInterface then
        (((started ref).addParents ref 0).addParent 0 interfaceRoot).hierarchy
      else (started ref).addParents ref 0 :=
  rfl

theorem consistent_empty : ({} : Hierarchy repo).Consistent := by
  constructor <;> simp [lookup?, name?, parents, children, class?]

theorem wellFormed_started (ref : repo.Ref) : (started ref).WellFormed := by
  have hconsistent : (started ref).Consistent := consistent_empty.add rfl
  refine hconsistent.wellFormed Nat.zero_lt_one fun id hid => ?_
  cases Nat.lt_one_iff.mp hid
  exact .refl

theorem build_grows (ref : repo.Ref) : (started ref).GrowsTo (build ref) := by
  rw [build_eq]
  split
  · exact addParents_grows.trans addParent_grows
  · exact addParents_grows

/-- For every entity there is its hierarchy, which starts at the entity and is well-formed. -/
theorem build_wellFormed (ref : repo.Ref) :
    (build ref).name? (build ref).start = some ref.qualifiedName ∧ (build ref).WellFormed := by
  have hstarted := wellFormed_started ref
  have hwellFormed : (build ref).WellFormed := by
    have hparents : ((started ref).addParents ref 0).WellFormed :=
      hstarted.addParents Nat.zero_lt_one
    have hstart := addParents_grows.lt hstarted.toConsistent hparents.toConsistent Nat.zero_lt_one
    rw [build_eq]
    split
    · exact hparents.addParent hstart interfaceRoot
    · exact hparents
  refine ⟨?_, hwellFormed⟩
  rw [← hwellFormed.lookup?_iff, (build_grows ref).start]
  exact (build_grows ref).lookup? _ _ (by simp [started, lookup?])

end Hierarchy

end DocMarkup
