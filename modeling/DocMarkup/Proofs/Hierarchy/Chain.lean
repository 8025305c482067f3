import Mathlib.Logic.Relation
import DocMarkup.Hierarchy

/-!
The classes above a class.

Whichever class is the parent of another is said by name, so going up ends at a class that is not
declared or has no parent. The chain of an entity is what going up meets, as long as no name is met
twice. On it, an interface is left out where the parent class lists it already, but never
everywhere.
-/

namespace DocMarkup

open Relation

variable {repo : Repository}

namespace ClassNode

/-- A class with the one that it names as its parent, declared or not. -/
inductive HasParent (below : ClassNode repo) : ClassNode repo → Prop
  | named {ref : repo.Ref} {parent : String} (hentity : below.entity = some ref)
      (hparent : ref.kind.parentName? = some parent) : HasParent below (repo.namedClass parent)

theorem hasParent_iff {name : String} {ref : repo.Ref} {above : ClassNode repo} :
    HasParent ⟨name, some ref⟩ above ↔
      ∃ parent, ref.kind.parentName? = some parent ∧ repo.namedClass parent = above := by
  constructor
  · rintro ⟨⟨⟩, hkind⟩
    exact ⟨_, hkind, rfl⟩
  · rintro ⟨parent, hkind, rfl⟩
    exact .named rfl hkind

theorem HasParent.unique {below above other : ClassNode repo} (habove : below.HasParent above)
    (hother : below.HasParent other) : other = above := by
  obtain ⟨hentity, hkind⟩ := habove
  obtain ⟨hentity', hkind'⟩ := hother
  cases hentity.symm.trans hentity'
  cases hkind.symm.trans hkind'
  rfl

theorem eq_of_undeclared {below above : ClassNode repo} (hentity : below.entity = none)
    (h : ReflTransGen HasParent below above) : above = below := by
  rcases h.cases_head with rfl | ⟨next, ⟨hdeclared, _⟩, _⟩
  · rfl
  · cases hentity.symm.trans hdeclared

def Lists (node : ClassNode repo) (interface : String) : Prop :=
  ∃ ref ∈ node.entity, interface ∈ ref.kind.interfaces

/-- On the way up from the class no name is met twice. -/
def Unrepeated (node : ClassNode repo) : Prop :=
  ∀ first second, ReflTransGen HasParent node first → TransGen HasParent first second →
    first.name ≠ second.name

/-- Besides, none of these names is met above the class. -/
structure ClimbsPast (visited : List String) (node : ClassNode repo) : Prop where
  unrepeated : node.Unrepeated
  unvisited : ∀ above, TransGen HasParent node above → above.name ∉ visited

theorem Unrepeated.climbsPast {node : ClassNode repo} (h : node.Unrepeated) :
    ClimbsPast [node.name] node where
  unrepeated := h
  unvisited above habove hmem := h node above .refl habove (List.mem_singleton.mp hmem).symm

variable {visited : List String} {node parent : ClassNode repo}

theorem ascends_iff (hparent : node.HasParent parent) {above : ClassNode repo} :
    ReflTransGen HasParent node above ↔ above = node ∨ ReflTransGen HasParent parent above := by
  constructor
  · intro h
    rcases h.cases_head with rfl | ⟨next, hnext, h⟩
    · exact .inl rfl
    · exact .inr (hparent.unique hnext ▸ h)
  · rintro (rfl | h)
    · exact .refl
    · exact h.head hparent

theorem Unrepeated.of_undeclared (hentity : node.entity = none) : node.Unrepeated := by
  intro first second hfirst hsecond
  obtain ⟨next, ⟨hdeclared, _⟩, _⟩ := TransGen.head'_iff.mp hsecond
  rw [eq_of_undeclared hentity hfirst] at hdeclared
  cases hentity.symm.trans hdeclared

theorem Unrepeated.below (hparent : node.HasParent parent) (h : parent.Unrepeated)
    (hname : ∀ above, ReflTransGen HasParent parent above → node.name ≠ above.name) :
    node.Unrepeated := by
  intro first second hfirst hsecond
  rcases (ascends_iff hparent).mp hfirst with rfl | hfirst
  · obtain ⟨next, hnext, hsecond⟩ := TransGen.head'_iff.mp hsecond
    exact hname second (hparent.unique hnext ▸ hsecond)
  · exact h first second hfirst hsecond

theorem ClimbsPast.above (h : ClimbsPast visited node) (hparent : node.HasParent parent) :
    ClimbsPast (parent.name :: visited) parent where
  unrepeated first second hfirst hsecond := h.unrepeated first second (hfirst.head hparent) hsecond
  unvisited above habove hmem := by
    rcases List.mem_cons.mp hmem with heq | hmem
    · exact h.unrepeated parent above (.single hparent) habove heq.symm
    · exact h.unvisited above (.head hparent habove) hmem

theorem ClimbsPast.not_mem (h : ClimbsPast visited node) (hparent : node.HasParent parent) :
    parent.name ∉ visited :=
  h.unvisited parent (.single hparent)

end ClassNode

namespace Repository

open ClassNode

/-- The class of that name and those above it, `visited` being the names met before. The chain ends
at a parent that is not declared or was met before. -/
def chain (repo : Repository) (visited : List String) (name : String) (ref : repo.Ref) :
    List (String × repo.Ref) :=
  (name, ref) ::
    match _h : ref.kind.parentName? with
    | none => []
    | some parent =>
        if _hvisited : parent ∈ visited then []
        else
          match repo.lookup? parent with
          | none => []
          | some above => chain repo (parent :: visited) parent above
termination_by unvisited repo.parentNames visited
decreasing_by exact unvisited_cons_lt (parentName_mem _h) _hvisited

variable {visited : List String} {name interface : String} {ref : repo.Ref}

theorem chain_of_top (hkind : ref.kind.parentName? = none) :
    repo.chain visited name ref = [(name, ref)] := by
  rw [chain, hkind]

theorem chain_of_last {parent : String} (hkind : ref.kind.parentName? = some parent)
    (hstop : parent ∈ visited ∨ repo.lookup? parent = none) :
    repo.chain visited name ref = [(name, ref)] := by
  rw [chain, hkind]
  by_cases hvisited : parent ∈ visited
  · simp [hvisited]
  · simp [hvisited, hstop.resolve_left hvisited]

theorem chain_of_more {parent : String} {above : repo.Ref}
    (hkind : ref.kind.parentName? = some parent) (hnew : parent ∉ visited)
    (habove : repo.lookup? parent = some above) :
    repo.chain visited name ref =
      (name, ref) :: repo.chain (parent :: visited) parent above := by
  rw [chain, hkind]
  simp [hnew, habove]

/-- A chain has its first class only, or goes on with the declared parent of that class. -/
@[elab_as_elim]
theorem chain_elim {holds : List String → String → repo.Ref → Prop}
    (last : ∀ visited name ref, repo.chain visited name ref = [(name, ref)] →
      (∀ parent, ref.kind.parentName? = some parent → parent ∉ visited →
        repo.lookup? parent = none) → holds visited name ref)
    (more : ∀ visited name ref parent above, ref.kind.parentName? = some parent →
      parent ∉ visited → repo.lookup? parent = some above →
      repo.chain visited name ref = (name, ref) :: repo.chain (parent :: visited) parent above →
      holds (parent :: visited) parent above → holds visited name ref)
    (visited : List String) (name : String) (ref : repo.Ref) : holds visited name ref := by
  induction visited, name, ref using chain.induct with
  | case1 visited name ref ih =>
      cases hkind : ref.kind.parentName? with
      | none =>
          exact last visited name ref (chain_of_top hkind) fun _ h => by cases hkind.symm.trans h
      | some parent =>
          by_cases hvisited : parent ∈ visited
          · have hchain : repo.chain visited name ref = [(name, ref)] :=
              chain_of_last hkind (.inl hvisited)
            refine last visited name ref hchain fun other h hnew => ?_
            cases hkind.symm.trans h
            exact absurd hvisited hnew
          · cases habove : repo.lookup? parent with
            | none =>
                have hchain : repo.chain visited name ref = [(name, ref)] :=
                  chain_of_last hkind (.inr habove)
                refine last visited name ref hchain fun other h _ => ?_
                cases hkind.symm.trans h
                exact habove
            | some above =>
                exact more visited name ref parent above hkind hvisited habove
                  (chain_of_more hkind hvisited habove) (ih parent hkind hvisited above)

theorem self_mem_chain : (name, ref) ∈ repo.chain visited name ref := by
  rw [chain]
  exact List.mem_cons_self

theorem ascends_of_mem_chain : ∀ item ∈ repo.chain visited name ref,
    ReflTransGen HasParent ⟨name, some ref⟩ ⟨item.1, some item.2⟩ := by
  induction visited, name, ref using chain_elim with
  | last visited name ref hchain _ =>
      intro item hmem
      rw [hchain, List.mem_singleton] at hmem
      rw [hmem]
  | more visited name ref parent above hkind _ habove hchain ih =>
      have hnode : repo.namedClass parent = ⟨parent, some above⟩ := by rw [namedClass, habove]
      rw [hchain]
      refine List.forall_mem_cons.mpr ⟨.refl, fun item hmem => (ih item hmem).head ?_⟩
      exact hnode ▸ HasParent.named rfl hkind

theorem mem_chain_of_ascends (hclimbs : ClimbsPast visited ⟨name, some ref⟩)
    {node : ClassNode repo} (hnode : ReflTransGen HasParent ⟨name, some ref⟩ node)
    {entity : repo.Ref} (hentity : node.entity = some entity) :
    (node.name, entity) ∈ repo.chain visited name ref := by
  induction visited, name, ref using chain_elim with
  | last visited name ref hchain hlast =>
      rw [hchain, List.mem_singleton]
      rcases hnode.cases_head with rfl | ⟨above, hparent, habove⟩
      · cases hentity
        rfl
      · -- The chain did not end because of a name met before, so the parent is not declared.
        have hnew := hclimbs.not_mem hparent
        obtain ⟨parent, hkind, rfl⟩ := hasParent_iff.mp hparent
        have hnone := hlast parent hkind hnew
        rw [eq_of_undeclared hnone habove] at hentity
        cases hnone.symm.trans hentity
  | more visited name ref parent above hkind _ habove hchain ih =>
      rw [hchain]
      rcases hnode.cases_head with rfl | ⟨next, hparent, hnext⟩
      · cases hentity
        exact List.mem_cons_self
      · have hclimbs := hclimbs.above hparent
        obtain ⟨other, hother, rfl⟩ := hasParent_iff.mp hparent
        cases hkind.symm.trans hother
        rw [namedClass, habove] at hnext hclimbs
        exact List.mem_cons_of_mem _ (ih hclimbs hnext)

theorem mem_inheritedInterfaces_iff :
    interface ∈ inheritedInterfaces ref ↔
      ∃ parent above, ref.kind.parentName? = some parent ∧ repo.lookup? parent = some above ∧
        interface ∈ above.kind.interfaces := by
  unfold inheritedInterfaces
  cases hfound : ref.kind.parentName?.bind repo.lookup? with
  | none =>
      refine iff_of_false List.not_mem_nil ?_
      rintro ⟨parent, above, hkind, habove, -⟩
      cases hfound.symm.trans (Option.bind_eq_some_iff.mpr ⟨parent, hkind, habove⟩)
  | some above =>
      obtain ⟨parent, hkind, habove⟩ := Option.bind_eq_some_iff.mp hfound
      constructor
      · exact fun hmem => ⟨parent, above, hkind, habove, hmem⟩
      · rintro ⟨other, found, hother, hfound, hmem⟩
        cases hkind.symm.trans hother
        cases habove.symm.trans hfound
        exact hmem

theorem mem_ownInterfaces_iff :
    interface ∈ ownInterfaces ref ↔
      interface ∈ ref.kind.interfaces ∧ interface ∉ inheritedInterfaces ref := by
  rw [ownInterfaces, List.mem_filter, decide_eq_true_eq]

theorem inherited_iff_parent_lists :
    interface ∈ inheritedInterfaces ref ↔
      ∃ parent, HasParent ⟨name, some ref⟩ parent ∧ parent.Lists interface := by
  rw [mem_inheritedInterfaces_iff]
  constructor
  · rintro ⟨parent, above, hkind, habove, hmem⟩
    exact ⟨_, .named rfl hkind, above, habove, hmem⟩
  · rintro ⟨_, hparent, above, habove, hmem⟩
    obtain ⟨parent, hkind, rfl⟩ := hasParent_iff.mp hparent
    exact ⟨parent, above, hkind, habove, hmem⟩

/-- An interface is left out where the parent class lists it, but not by every class of the chain
that lists it. -/
theorem exists_owner (hclimbs : ClimbsPast visited ⟨name, some ref⟩) :
    ∀ item ∈ repo.chain visited name ref, interface ∈ item.2.kind.interfaces →
      ∃ owner ∈ repo.chain visited name ref, interface ∈ ownInterfaces owner.2 := by
  induction visited, name, ref using chain_elim with
  | last visited name ref hchain hlast =>
      intro item hmem hlists
      refine ⟨item, hmem, mem_ownInterfaces_iff.mpr ⟨hlists, fun hinherited => ?_⟩⟩
      rw [hchain, List.mem_singleton] at hmem
      subst hmem
      obtain ⟨parent, above, hkind, habove, -⟩ := mem_inheritedInterfaces_iff.mp hinherited
      have hnew := hclimbs.not_mem (.named rfl hkind)
      cases (hlast parent hkind hnew).symm.trans habove
  | more visited name ref parent above hkind _ habove hchain ih =>
      have hclimbs := hclimbs.above (.named rfl hkind)
      rw [namedClass, habove] at hclimbs
      -- What the parent lists is found above; the class itself adds what its parent does not list.
      have hfound : ∀ item ∈ repo.chain (parent :: visited) parent above,
          interface ∈ item.2.kind.interfaces →
            ∃ owner ∈ repo.chain visited name ref, interface ∈ ownInterfaces owner.2 := by
        intro item hmem hlists
        obtain ⟨owner, howner, hown⟩ := ih hclimbs item hmem hlists
        exact ⟨owner, hchain ▸ List.mem_cons_of_mem _ howner, hown⟩
      intro item hmem hlists
      rw [hchain] at hmem
      rcases List.mem_cons.mp hmem with rfl | hmem
      · by_cases hinherited : interface ∈ inheritedInterfaces ref
        · obtain ⟨other, found, hother, hother', hmem⟩ := mem_inheritedInterfaces_iff.mp hinherited
          cases hkind.symm.trans hother
          cases habove.symm.trans hother'
          exact hfound (parent, above) self_mem_chain hmem
        · exact ⟨(name, ref), self_mem_chain, mem_ownInterfaces_iff.mpr ⟨hlists, hinherited⟩⟩
      · exact hfound item hmem hlists

end Repository

end DocMarkup
