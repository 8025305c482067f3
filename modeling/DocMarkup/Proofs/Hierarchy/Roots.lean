import DocMarkup.Proofs.Hierarchy.Graph

/-!
The roots of a hierarchy.

The walk upwards that looks for them passes over what it saw before. Since the parents of all that
was seen were seen as well or are still to be visited, it finds each class without parents at or
above its start, and finds it once. Roots are put in the order of their names, last names first.
-/

namespace DocMarkup

open Repository Relation

namespace Hierarchy

variable {repo : Repository} {hierarchy : Hierarchy repo} {seen stack : List ClassId}
  {id root : ClassId}

def IsRoot (hierarchy : Hierarchy repo) (id : ClassId) : Prop :=
  hierarchy.parents id = []

instance (hierarchy : Hierarchy repo) : DecidablePred hierarchy.IsRoot :=
  fun id => inferInstanceAs (Decidable (hierarchy.parents id = []))

def Rooted (hierarchy : Hierarchy repo) (id : ClassId) : Prop :=
  ∃ root, ReflTransGen hierarchy.IsParent id root ∧ hierarchy.IsRoot root

theorem leavesFrom_of_seen (hseen : id ∈ seen) :
    hierarchy.leavesFrom seen (id :: stack) = hierarchy.leavesFrom seen stack := by
  rw [leavesFrom, if_pos hseen]

theorem leavesFrom_of_new (hnew : id ∉ seen) :
    hierarchy.leavesFrom seen (id :: stack) =
      (if (hierarchy.parents id).isEmpty then [id] else []) ++
        hierarchy.leavesFrom (id :: seen) ((hierarchy.parents id).reverse ++ stack) := by
  rw [leavesFrom, if_neg hnew]
  simp only
  split <;> rfl

theorem mem_leavesFrom_of_new (hnew : id ∉ seen) :
    root ∈ hierarchy.leavesFrom seen (id :: stack) ↔
      (root = id ∧ hierarchy.IsRoot id) ∨
        root ∈ hierarchy.leavesFrom (id :: seen) ((hierarchy.parents id).reverse ++ stack) := by
  rw [leavesFrom_of_new hnew, List.mem_append, IsRoot]
  split
  · next hempty => simp [List.isEmpty_iff.mp hempty]
  · next hparents => simp [List.isEmpty_iff.not.mp hparents]

/-- Visiting ends with the stack, passes over a class that was seen, or goes on above a new one. -/
@[elab_as_elim]
theorem leavesFrom_elim (hierarchy : Hierarchy repo)
    {holds : List ClassId → List ClassId → Prop} (done : ∀ seen, holds seen [])
    (known : ∀ seen id stack, id ∈ seen → holds seen stack → holds seen (id :: stack))
    (new : ∀ seen id stack, id ∉ seen →
      holds (id :: seen) ((hierarchy.parents id).reverse ++ stack) → holds seen (id :: stack))
    (seen stack : List ClassId) : holds seen stack := by
  induction seen, stack using leavesFrom.induct hierarchy with
  | case1 seen => exact done seen
  | case2 seen id stack hseen ih => exact known seen id stack hseen ih
  | case3 seen id stack hnew _ ih => exact new seen id stack hnew ih
  | case4 seen id stack hnew _ ih => exact new seen id stack hnew ih

theorem leavesFrom_sound (hroot : root ∈ hierarchy.leavesFrom seen stack) :
    (root ∉ seen ∧ hierarchy.IsRoot root) ∧
      ∃ id ∈ stack, ReflTransGen hierarchy.IsParent id root := by
  induction seen, stack using leavesFrom_elim hierarchy with
  | done seen => simp [leavesFrom] at hroot
  | known seen id stack hseen ih =>
      rw [leavesFrom_of_seen hseen] at hroot
      obtain ⟨hfound, below, hbelow, hway⟩ := ih hroot
      exact ⟨hfound, below, List.mem_cons_of_mem _ hbelow, hway⟩
  | new seen id stack hnew ih =>
      rcases (mem_leavesFrom_of_new hnew).mp hroot with ⟨rfl, hroot⟩ | hroot
      · exact ⟨⟨hnew, hroot⟩, root, List.mem_cons_self, .refl⟩
      · obtain ⟨⟨hunseen, hparents⟩, below, hbelow, hway⟩ := ih hroot
        refine ⟨⟨fun hseen => hunseen (List.mem_cons_of_mem _ hseen), hparents⟩, ?_⟩
        rcases List.mem_append.mp hbelow with hbelow | hbelow
        · exact ⟨id, List.mem_cons_self, hway.head (List.mem_reverse.mp hbelow)⟩
        · exact ⟨below, List.mem_cons_of_mem _ hbelow, hway⟩

/-- Nothing above what was seen is forgotten. -/
def Closed (hierarchy : Hierarchy repo) (seen stack : List ClassId) : Prop :=
  ∀ id ∈ seen, ∀ parent ∈ hierarchy.parents id, parent ∈ seen ∨ parent ∈ stack

theorem Closed.mem_seen (h : Closed hierarchy seen []) (hid : id ∈ seen)
    (hroot : ReflTransGen hierarchy.IsParent id root) : root ∈ seen := by
  induction hroot with
  | refl => exact hid
  | tail _ hparent ih => exact (h _ ih _ hparent).resolve_right List.not_mem_nil

theorem Closed.new (h : Closed hierarchy seen (id :: stack)) :
    Closed hierarchy (id :: seen) ((hierarchy.parents id).reverse ++ stack) := by
  intro below hbelow parent hparent
  rcases List.mem_cons.mp hbelow with rfl | hbelow
  · exact .inr (List.mem_append_left _ (List.mem_reverse.mpr hparent))
  · rcases h below hbelow parent hparent with hseen | hstack
    · exact .inl (List.mem_cons_of_mem _ hseen)
    · rcases List.mem_cons.mp hstack with rfl | hstack
      · exact .inl List.mem_cons_self
      · exact .inr (List.mem_append_right _ hstack)

theorem Closed.known (h : Closed hierarchy seen (id :: stack)) (hseen : id ∈ seen) :
    Closed hierarchy seen stack := by
  intro below hbelow parent hparent
  rcases h below hbelow parent hparent with hknown | hstack
  · exact .inl hknown
  · rcases List.mem_cons.mp hstack with rfl | hstack
    · exact .inl hseen
    · exact .inr hstack

theorem leavesFrom_complete (hclosed : Closed hierarchy seen stack)
    (hid : id ∈ seen ∨ id ∈ stack) (hway : ReflTransGen hierarchy.IsParent id root)
    (hroot : hierarchy.IsRoot root) :
    root ∈ seen ∨ root ∈ hierarchy.leavesFrom seen stack := by
  induction seen, stack using leavesFrom_elim hierarchy with
  | done seen => exact .inl (hclosed.mem_seen (hid.resolve_right List.not_mem_nil) hway)
  | known seen first stack hseen ih =>
      rw [leavesFrom_of_seen hseen]
      refine ih (hclosed.known hseen) (hid.elim .inl fun hstack => ?_)
      rcases List.mem_cons.mp hstack with rfl | hstack
      · exact .inl hseen
      · exact .inr hstack
  | new seen first stack hnew ih =>
      rw [mem_leavesFrom_of_new hnew]
      have hmem : id ∈ first :: seen ∨ id ∈ (hierarchy.parents first).reverse ++ stack := by
        simp only [List.mem_cons, List.mem_append] at hid ⊢
        tauto
      rcases ih hclosed.new hmem with hseen | hfound
      · rcases List.mem_cons.mp hseen with rfl | hseen
        · exact .inr (.inl ⟨rfl, hroot⟩)
        · exact .inl hseen
      · exact .inr (.inr hfound)

theorem nodup_leavesFrom : (hierarchy.leavesFrom seen stack).Nodup := by
  induction seen, stack using leavesFrom_elim hierarchy with
  | done seen => simp [leavesFrom]
  | known seen id stack hseen ih => rwa [leavesFrom_of_seen hseen]
  | new seen id stack hnew ih =>
      rw [leavesFrom_of_new hnew]
      split
      · refine List.nodup_cons.mpr ⟨fun hmem => ?_, ih⟩
        exact (leavesFrom_sound hmem).1.1 List.mem_cons_self
      · exact ih

theorem perm_roots : hierarchy.roots.Perm (hierarchy.leavesFrom [] [hierarchy.start]) :=
  (List.mergeSort_perm _ _).trans (List.mergeSort_perm _ _)

theorem mem_roots_iff :
    root ∈ hierarchy.roots ↔
      ReflTransGen hierarchy.IsParent hierarchy.start root ∧ hierarchy.IsRoot root := by
  rw [perm_roots.mem_iff]
  constructor
  · intro hmem
    obtain ⟨⟨-, hroot⟩, below, hbelow, hway⟩ := leavesFrom_sound hmem
    cases List.mem_singleton.mp hbelow
    exact ⟨hway, hroot⟩
  · rintro ⟨hway, hroot⟩
    have hclosed : Closed hierarchy [] [hierarchy.start] := by
      intro id hid
      cases hid
    exact (leavesFrom_complete hclosed (.inr List.mem_cons_self) hway hroot).resolve_left
      List.not_mem_nil

theorem nodup_roots : hierarchy.roots.Nodup :=
  perm_roots.nodup_iff.mpr nodup_leavesFrom

theorem name?_eq_some_nameOf (hid : id < hierarchy.classes.length) :
    hierarchy.name? id = some (hierarchy.nameOf id) := by
  obtain ⟨name, hname⟩ := Option.isSome_iff_exists.mp (isSome_name?_iff.mpr hid)
  rw [nameOf, hname, Option.getD_some]

theorem Consistent.nameOf_inj (h : hierarchy.Consistent) {first second : ClassId}
    (hfirst : first < hierarchy.classes.length) (hsecond : second < hierarchy.classes.length)
    (heq : hierarchy.nameOf first = hierarchy.nameOf second) : first = second := by
  have hname := name?_eq_some_nameOf hfirst
  rw [heq, ← h.lookup?_iff] at hname
  have hname' := name?_eq_some_nameOf hsecond
  rw [← h.lookup?_iff, hname] at hname'
  exact Option.some.inj hname'

theorem WellFormed.lt_of_ascends (h : hierarchy.WellFormed) (hid : id < hierarchy.classes.length)
    (hway : ReflTransGen hierarchy.IsParent id root) : root < hierarchy.classes.length := by
  induction hway with
  | refl => exact hid
  | tail _ hparent _ => exact h.parents_lt _ _ hparent

theorem WellFormed.root_lt (h : hierarchy.WellFormed) (hroot : root ∈ hierarchy.roots) :
    root < hierarchy.classes.length :=
  h.lt_of_ascends h.start_lt (mem_roots_iff.mp hroot).1

theorem sorted_roots :
    hierarchy.roots.Pairwise fun first second =>
      hierarchy.nameOf second ≤ hierarchy.nameOf first := by
  have hsorted : hierarchy.roots.Pairwise fun first second =>
      decide (hierarchy.nameOf second ≤ hierarchy.nameOf first) = true :=
    List.pairwise_mergeSort (fun _ _ _ hfirst hsecond => by
        simpa using String.le_trans (of_decide_eq_true hsecond) (of_decide_eq_true hfirst))
      (fun first second => by simpa using String.le_total _ _) _
  exact hsorted.imp of_decide_eq_true

theorem WellFormed.strictly_roots (h : hierarchy.WellFormed) :
    hierarchy.roots.Pairwise fun first second =>
      hierarchy.nameOf second < hierarchy.nameOf first := by
  refine List.Pairwise.imp_of_mem ?_ (sorted_roots.and nodup_roots)
  rintro first second hfirst hsecond ⟨hle, hne⟩
  refine String.not_le.mp fun hge => hne ?_
  exact h.toConsistent.nameOf_inj (h.root_lt hfirst) (h.root_lt hsecond)
    (String.le_antisymm hge hle)

end Hierarchy

end DocMarkup
