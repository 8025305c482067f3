import Mathlib.Data.Fintype.EquivFin
import Mathlib.Data.List.Chain
import Mathlib.Data.List.Perm.Subperm
import DocMarkup.Hierarchy.Markup
import DocMarkup.Proofs.Hierarchy.Declared
import DocMarkup.Proofs.Hierarchy.Roots
import DocMarkup.Proofs.Hierarchy.Walks

/-!
The items of a hierarchy's tree.

Each item stands for a path from a root down to its class that comes to no class twice, and there
is one for every such path, in the order of a depth-first search. So a class has an item just if it
has a root at or above it. Where no class is above itself all have one, and paths end at the start.
-/

namespace DocMarkup

namespace Page.Element

mutual

def trails : Element → List (List (Option Element))
  | ⟨name, _, _, _, children⟩ =>
      if name = "item" then [children.head?] :: (trailsOfAll children).map (children.head? :: ·)
      else trailsOfAll children

def trailsOfAll : List Element → List (List (Option Element))
  | [] => []
  | element :: rest => trails element ++ trailsOfAll rest

end

end Page.Element

namespace Hierarchy

open Repository Relation

variable {repo : Repository} {hierarchy : Hierarchy repo} {style : LinkStyle repo}
  {path : List ClassId} {id root : ClassId}

theorem trails_linkElement (id : ClassId) : (hierarchy.linkElement style id).trails = [] := by
  rw [linkElement, Link.element, Page.Element.trails, if_neg (by decide), Page.Element.trailsOfAll]

/-- The links that stand for the classes of a path. -/
def linkTrail (hierarchy : Hierarchy repo) (style : LinkStyle repo) (path : List ClassId) :
    List (Option Page.Element) :=
  path.map fun id => some (hierarchy.linkElement style id)

mutual

theorem trails_item (hierarchy : Hierarchy repo) (style : LinkStyle repo) :
    ∀ tree : PathTree ClassId,
      (hierarchy.item style tree).trails = tree.walks.map (hierarchy.linkTrail style)
  | .node id branches => by
      rw [item, Page.Element.trails, if_pos rfl, Page.Element.trailsOfAll, trails_linkElement,
        List.nil_append, trails_items hierarchy style branches, PathTree.walks, List.map_cons,
        List.map_map, List.map_map]
      rfl

theorem trails_items (hierarchy : Hierarchy repo) (style : LinkStyle repo) :
    ∀ trees : List (PathTree ClassId),
      Page.Element.trailsOfAll (hierarchy.items style trees) =
        (PathTree.walksOfAll trees).map (hierarchy.linkTrail style)
  | [] => rfl
  | tree :: rest => by
      rw [items, Page.Element.trailsOfAll, trails_item hierarchy style tree,
        trails_items hierarchy style rest, PathTree.walksOfAll, List.map_append]

end

/-- The paths that the items stand for, in the order of the items. -/
def paths (hierarchy : Hierarchy repo) : List (List ClassId) :=
  PathTree.walksOfAll hierarchy.trees

theorem trails_element :
    (hierarchy.element style).trails = hierarchy.paths.map (hierarchy.linkTrail style) := by
  rw [element, Page.Element.trails, if_neg (by decide), trails_items, paths]

/-- A path from a root down, from class to class, that comes to none twice. -/
structure Descends (hierarchy : Hierarchy repo) (path : List ClassId) : Prop where
  root : ∃ root ∈ hierarchy.roots, path.head? = some root
  children : path.IsChain fun above below => below ∈ hierarchy.children above
  nodup : path.Nodup

/-- A path from the start up to a class without parents. -/
structure Ascends (hierarchy : Hierarchy repo) (path : List ClassId) : Prop where
  start : path.head? = some hierarchy.start
  parents : path.IsChain hierarchy.IsParent
  root : ∃ root, path.getLast? = some root ∧ hierarchy.IsRoot root

instance (hierarchy : Hierarchy repo) (path : List ClassId) :
    Decidable (hierarchy.Ascends path) :=
  decidable_of_iff
    (path.head? = some hierarchy.start ∧ path.IsChain hierarchy.IsParent ∧
      ∃ root ∈ path.getLast?, hierarchy.IsRoot root)
    ⟨fun ⟨start, parents, root⟩ => ⟨start, parents, root⟩,
      fun ⟨start, parents, root⟩ => ⟨start, parents, root⟩⟩

theorem WellFormed.mem_ids (h : hierarchy.WellFormed) :
    ∀ above, ∀ below ∈ hierarchy.children above, below ∈ hierarchy.ids :=
  fun above below hbelow => List.mem_range.mpr (h.children_lt above below hbelow)

theorem WellFormed.mem_paths_iff (h : hierarchy.WellFormed) :
    path ∈ hierarchy.paths ↔ hierarchy.Descends path := by
  simp only [paths, trees, PathTree.mem_walksOfAll_iff, List.mem_map, exists_exists_and_eq_and]
  constructor
  · rintro ⟨root, hroot, hpath⟩
    obtain ⟨hhead, hwalk⟩ := (PathTree.mem_walks_grow_iff h.mem_ids List.not_mem_nil).mp hpath
    exact ⟨⟨root, hroot, hhead⟩, hwalk.steps, hwalk.nodup⟩
  · rintro ⟨⟨root, hroot, hhead⟩, hchildren, hnodup⟩
    refine ⟨root, hroot, (PathTree.mem_walks_grow_iff h.mem_ids List.not_mem_nil).mpr ?_⟩
    exact ⟨hhead, hchildren, hnodup, fun _ _ => List.not_mem_nil⟩

theorem sorted_paths :
    hierarchy.paths.Pairwise (PathTree.Before hierarchy.children hierarchy.roots) :=
  PathTree.sorted_walksOfAll (List.Sublist.refl _) fun _ _ => PathTree.sorted_walks_grow _

theorem WellFormed.nodup_paths (h : hierarchy.WellFormed) : hierarchy.paths.Nodup :=
  sorted_paths.imp fun hbefore => hbefore.ne h.nodup_children nodup_roots

theorem Descends.of_append_cons {before after : List ClassId}
    (h : hierarchy.Descends (before ++ id :: after)) : hierarchy.Descends (before ++ [id]) := by
  have hprefix : before ++ [id] <+: before ++ id :: after := ⟨after, by simp⟩
  obtain ⟨⟨root, hroot, hhead⟩, hchildren, hnodup⟩ := h
  refine ⟨⟨root, hroot, ?_⟩, hchildren.prefix hprefix, hnodup.sublist hprefix.sublist⟩
  cases before with
  | nil => exact hhead
  | cons => exact hhead

theorem Descends.concat {last : ClassId} (h : hierarchy.Descends path)
    (hlast : path.getLast? = some last) (hchild : id ∈ hierarchy.children last)
    (hid : id ∉ path) : hierarchy.Descends (path ++ [id]) := by
  obtain ⟨⟨root, hroot, hhead⟩, hchildren, hnodup⟩ := h
  refine ⟨⟨root, hroot, by rw [List.head?_append, hhead]; rfl⟩, ?_, ?_⟩
  · refine List.isChain_append.mpr ⟨hchildren, .singleton id, ?_⟩
    intro above habove below hbelow
    cases hlast.symm.trans habove
    cases Option.some.inj hbelow
    exact hchild
  · simpa using hnodup.concat hid

theorem Consistent.pairwise_children (h : hierarchy.Consistent)
    (hchildren : path.IsChain fun above below => below ∈ hierarchy.children above) :
    path.Pairwise fun above below => TransGen hierarchy.IsParent below above := by
  have : Trans (fun above below => TransGen hierarchy.IsParent below above)
      (fun above below => TransGen hierarchy.IsParent below above)
      (fun above below => TransGen hierarchy.IsParent below above) :=
    ⟨fun hfirst hsecond => hsecond.trans hfirst⟩
  have hchain : path.IsChain fun above below => TransGen hierarchy.IsParent below above :=
    hchildren.imp fun above below hbelow => .single ((h.children_iff below above).mpr hbelow)
  exact hchain.pairwise

theorem Consistent.last_below {last : ClassId} (h : hierarchy.Consistent)
    (hchildren : path.IsChain fun above below => below ∈ hierarchy.children above)
    (hlast : path.getLast? = some last) (hid : id ∈ path) :
    ReflTransGen hierarchy.IsParent last id := by
  obtain ⟨before, rfl⟩ := List.getLast?_eq_some_iff.mp hlast
  obtain ⟨-, -, hbelow⟩ := List.pairwise_append.mp (h.pairwise_children hchildren)
  rcases List.mem_append.mp hid with hid | hid
  · exact (hbelow id hid last List.mem_cons_self).to_reflTransGen
  · cases List.mem_singleton.mp hid
    exact .refl

section

variable (h : hierarchy.WellFormed)

include h

theorem WellFormed.exists_root_of_mem (hpath : hierarchy.Descends path) (hid : id ∈ path) :
    ∃ root ∈ hierarchy.roots, ReflTransGen hierarchy.IsParent id root := by
  obtain ⟨⟨root, hroot, hhead⟩, hchildren, -⟩ := hpath
  obtain ⟨rest, rfl⟩ := List.head?_eq_some_iff.mp hhead
  refine ⟨root, hroot, ?_⟩
  rcases List.mem_cons.mp hid with rfl | hid
  · exact .refl
  · exact ((List.pairwise_cons.mp (h.pairwise_children hchildren)).1 id hid).to_reflTransGen

theorem WellFormed.lt_of_mem_path (hpath : hierarchy.Descends path) (hid : id ∈ path) :
    id < hierarchy.classes.length := by
  obtain ⟨root, hroot, hway⟩ := h.exists_root_of_mem hpath hid
  rcases hway.cases_head with rfl | ⟨parent, hparent, -⟩
  · exact h.root_lt hroot
  · exact lt_of_mem_parents hparent

theorem WellFormed.length_path_le (hpath : hierarchy.Descends path) :
    path.length ≤ hierarchy.classes.length := by
  have hsubset : path ⊆ hierarchy.ids :=
    fun id hid => List.mem_range.mpr (h.lt_of_mem_path hpath hid)
  have hlength := (hpath.nodup.subperm hsubset).length_le
  rwa [ids, List.length_range] at hlength

theorem WellFormed.roots_of_ascends (hway : ReflTransGen hierarchy.IsParent id root)
    (hid : id < hierarchy.classes.length) (hroot : hierarchy.IsRoot root) :
    root ∈ hierarchy.roots :=
  mem_roots_iff.mpr ⟨(h.reached id hid).trans hway, hroot⟩

/-- From a root some path leads down to each class below it. -/
theorem WellFormed.exists_path (hroot : root ∈ hierarchy.roots)
    (hway : ReflTransGen hierarchy.IsParent id root) :
    ∃ path, hierarchy.Descends path ∧ path.getLast? = some id := by
  induction hway using ReflTransGen.head_induction_on with
  | refl => exact ⟨[root], ⟨⟨root, hroot, rfl⟩, .singleton root, List.nodup_singleton root⟩, rfl⟩
  | @head id parent hparent _ ih =>
      obtain ⟨path, hpath, hlast⟩ := ih
      by_cases hid : id ∈ path
      · -- The path to the parent comes through the class already.
        obtain ⟨before, after, rfl⟩ := List.append_of_mem hid
        exact ⟨before ++ [id], hpath.of_append_cons, List.getLast?_concat⟩
      · have hchild := (h.children_iff id parent).mp hparent
        exact ⟨path ++ [id], hpath.concat hlast hchild hid, List.getLast?_concat⟩

end

def HasItem (hierarchy : Hierarchy repo) (id : ClassId) : Prop :=
  ∃ path ∈ hierarchy.paths, path.getLast? = some id

/-- The tree is not empty and has an item for each class. -/
structure ShowsAll (hierarchy : Hierarchy repo) : Prop where
  roots : hierarchy.roots ≠ []
  classes : ∀ id < hierarchy.classes.length, hierarchy.HasItem id

theorem WellFormed.hasItem_iff (h : hierarchy.WellFormed) (hid : id < hierarchy.classes.length) :
    hierarchy.HasItem id ↔ hierarchy.Rooted id := by
  constructor
  · rintro ⟨path, hpath, hlast⟩
    obtain ⟨root, hroot, hway⟩ :=
      h.exists_root_of_mem (h.mem_paths_iff.mp hpath) (List.mem_of_getLast? hlast)
    exact ⟨root, hway, (mem_roots_iff.mp hroot).2⟩
  · rintro ⟨root, hway, hroot⟩
    obtain ⟨path, hpath, hlast⟩ := h.exists_path (h.roots_of_ascends hway hid hroot) hway
    exact ⟨path, h.mem_paths_iff.mpr hpath, hlast⟩

theorem roots_ne_nil_iff : hierarchy.roots ≠ [] ↔ hierarchy.Rooted hierarchy.start := by
  constructor
  · intro hne
    obtain ⟨root, hroot⟩ := List.exists_mem_of_ne_nil _ hne
    exact ⟨root, mem_roots_iff.mp hroot⟩
  · rintro ⟨root, hroot⟩
    exact List.ne_nil_of_mem (mem_roots_iff.mpr hroot)

theorem WellFormed.showsAll_iff (h : hierarchy.WellFormed) :
    hierarchy.ShowsAll ↔ ∀ id < hierarchy.classes.length, hierarchy.Rooted id := by
  constructor
  · exact fun hall id hid => (h.hasItem_iff hid).mp (hall.classes id hid)
  · exact fun hrooted =>
      ⟨roots_ne_nil_iff.mpr (hrooted _ h.start_lt), fun id hid =>
        (h.hasItem_iff hid).mpr (hrooted id hid)⟩

def Acyclic (hierarchy : Hierarchy repo) : Prop :=
  ∀ id, ¬ TransGen hierarchy.IsParent id id

theorem acyclic_of_rank (rank : ClassId → Nat)
    (h : ∀ id ∈ hierarchy.ids, ∀ parent ∈ hierarchy.parents id, rank id < rank parent) :
    hierarchy.Acyclic := by
  have hrank : ∀ {first second}, TransGen hierarchy.IsParent first second →
      rank first < rank second := by
    intro first second hway
    induction hway with
    | single hparent => exact h _ (List.mem_range.mpr (lt_of_mem_parents hparent)) _ hparent
    | tail _ hparent ih =>
        exact ih.trans (h _ (List.mem_range.mpr (lt_of_mem_parents hparent)) _ hparent)
  exact fun id hcycle => Nat.lt_irrefl _ (hrank hcycle)

theorem Acyclic.wellFounded (hacyclic : hierarchy.Acyclic) :
    WellFounded fun above below : Fin hierarchy.classes.length =>
      TransGen hierarchy.IsParent below above := by
  have : IsTrans (Fin hierarchy.classes.length) fun above below =>
      TransGen hierarchy.IsParent below above :=
    ⟨fun _ _ _ hfirst hsecond => hsecond.trans hfirst⟩
  have : Std.Irrefl fun above below : Fin hierarchy.classes.length =>
      TransGen hierarchy.IsParent below above :=
    ⟨fun id => hacyclic id⟩
  exact Finite.wellFounded_of_trans_of_irrefl _

section

variable (h : hierarchy.WellFormed) (hacyclic : hierarchy.Acyclic)

include h hacyclic

theorem Acyclic.rooted (hid : id < hierarchy.classes.length) : hierarchy.Rooted id := by
  suffices hrooted : ∀ id : Fin hierarchy.classes.length, hierarchy.Rooted id from
    hrooted ⟨id, hid⟩
  intro id
  induction id using hacyclic.wellFounded.induction with
  | _ id ih =>
      by_cases hroot : hierarchy.IsRoot id
      · exact ⟨id, .refl, hroot⟩
      · obtain ⟨parent, hparent⟩ := List.exists_mem_of_ne_nil _ hroot
        obtain ⟨root, hway, hroot⟩ := ih ⟨parent, h.parents_lt _ _ hparent⟩ (.single hparent)
        exact ⟨root, hway.head hparent, hroot⟩

theorem Acyclic.getLast?_of_maximal (hpath : hierarchy.Descends path)
    (hmaximal : ∀ id, ¬ hierarchy.Descends (path ++ [id])) :
    path.getLast? = some hierarchy.start := by
  obtain ⟨root, -, hhead⟩ := hpath.root
  obtain ⟨last, hlast⟩ : ∃ last, path.getLast? = some last := by
    obtain ⟨rest, rfl⟩ := List.head?_eq_some_iff.mp hhead
    exact ⟨_, List.getLast?_cons⟩
  have hreached := h.reached last (h.lt_of_mem_path hpath (List.mem_of_getLast? hlast))
  rcases hreached.cases_tail with rfl | ⟨below, -, hparent⟩
  · exact hlast
  · -- The class below the last one is not on the path, since it would be above itself.
    have hchild := (h.children_iff below last).mp hparent
    refine absurd (hpath.concat hlast hchild fun hmem => ?_) (hmaximal below)
    exact hacyclic below (.head' hparent (h.last_below hpath.children hlast hmem))

theorem Acyclic.ascends_iff :
    hierarchy.Descends path ∧ path.getLast? = some hierarchy.start ↔
      hierarchy.Ascends path.reverse := by
  constructor
  · rintro ⟨⟨⟨root, hroot, hhead⟩, hchildren, -⟩, hlast⟩
    refine ⟨?_, ?_, root, ?_, (mem_roots_iff.mp hroot).2⟩
    · rwa [List.head?_reverse]
    · exact List.isChain_reverse.mpr
        (hchildren.imp fun above below => (h.children_iff below above).mpr)
    · rwa [List.getLast?_reverse]
  · rintro ⟨hstart, hparents, root, hend, hroot⟩
    rw [List.head?_reverse] at hstart
    rw [List.getLast?_reverse] at hend
    have hchildren : path.IsChain fun above below => below ∈ hierarchy.children above :=
      (List.isChain_reverse.mp hparents).imp fun above below => (h.children_iff below above).mp
    have hway := h.last_below hchildren hstart (List.mem_of_head? hend)
    refine ⟨⟨⟨root, mem_roots_iff.mpr ⟨hway, hroot⟩, hend⟩, hchildren, ?_⟩, hstart⟩
    refine (h.pairwise_children hchildren).imp ?_
    rintro above _ hbelow rfl
    exact hacyclic above hbelow

end

/-- Roots are the classes without parents at or above the start, and items stand for the paths
that lead down from them. -/
structure ShowsPaths (hierarchy : Hierarchy repo) (style : LinkStyle repo) : Prop where
  roots : ∀ id, id ∈ hierarchy.roots ↔
    ReflTransGen hierarchy.IsParent hierarchy.start id ∧ hierarchy.IsRoot id
  descending : hierarchy.roots.Pairwise fun first second =>
    hierarchy.nameOf second < hierarchy.nameOf first
  items : (hierarchy.element style).trails = hierarchy.paths.map (hierarchy.linkTrail style)
  paths : ∀ path, path ∈ hierarchy.paths ↔ hierarchy.Descends path
  ordered : hierarchy.paths.Pairwise (PathTree.Before hierarchy.children hierarchy.roots)
  once : hierarchy.paths.Nodup
  bounded : ∀ path ∈ hierarchy.paths, path.length ≤ hierarchy.classes.length

/-- All paths lead on to the start, and it has one item for each way up from it to a root. -/
structure EndsAtStart (hierarchy : Hierarchy repo) : Prop where
  maximal : ∀ path ∈ hierarchy.paths, (∀ id, path ++ [id] ∉ hierarchy.paths) →
    path.getLast? = some hierarchy.start
  upward : ∀ path, path ∈ hierarchy.paths ∧ path.getLast? = some hierarchy.start ↔
    hierarchy.Ascends path.reverse
  once : ∀ path, hierarchy.Ascends path → hierarchy.paths.count path.reverse = 1

theorem WellFormed.showsPaths (h : hierarchy.WellFormed) : hierarchy.ShowsPaths style where
  roots _ := mem_roots_iff
  descending := h.strictly_roots
  items := trails_element
  paths _ := h.mem_paths_iff
  ordered := sorted_paths
  once := h.nodup_paths
  bounded _ hpath := h.length_path_le (h.mem_paths_iff.mp hpath)

theorem Acyclic.endsAtStart (h : hierarchy.WellFormed) (hacyclic : hierarchy.Acyclic) :
    hierarchy.EndsAtStart := by
  have hupward : ∀ path, path ∈ hierarchy.paths ∧ path.getLast? = some hierarchy.start ↔
      hierarchy.Ascends path.reverse := by
    intro path
    rw [h.mem_paths_iff]
    exact hacyclic.ascends_iff h
  constructor
  case maximal =>
    simp only [h.mem_paths_iff]
    exact fun path => hacyclic.getLast?_of_maximal h
  case upward => exact hupward
  case once =>
    intro path hpath
    rw [← List.reverse_reverse path, ← hupward] at hpath
    exact List.count_eq_one_of_mem h.nodup_paths hpath.1

theorem build_showsPaths (ref : repo.Ref) (style : LinkStyle repo) :
    (build ref).ShowsPaths style ∧ ((build ref).Acyclic → (build ref).EndsAtStart) := by
  have h := (build_wellFormed ref).2
  exact ⟨h.showsPaths, fun hacyclic => hacyclic.endsAtStart h⟩

theorem acyclic_box : (build box).Acyclic :=
  acyclic_of_rank ([0, 1, 2, 2, 3, 1].getD · 0) (by decide +kernel)

/-- A box is below the base of all interfaces as a widget and by the interface that it adds. -/
theorem build_showsPaths_box :
    (build box).Acyclic ∧ (build box).paths.count [4, 3, 1, 0] = 1 ∧
      (build box).paths.count [4, 5, 0] = 1 := by
  obtain ⟨-, hends⟩ := build_showsPaths box { language := .python }
  have honce := (hends acyclic_box).once
  exact ⟨acyclic_box, honce [0, 1, 3, 4] (by decide +kernel), honce [0, 5, 4] (by decide +kernel)⟩

/-- A class has an item just if a class without parents is at or above it. -/
structure ShowsRooted (hierarchy : Hierarchy repo) (style : LinkStyle repo) : Prop where
  items : (hierarchy.element style).trails = hierarchy.paths.map (hierarchy.linkTrail style)
  classes : ∀ id < hierarchy.classes.length, hierarchy.HasItem id ↔ hierarchy.Rooted id
  roots : hierarchy.roots ≠ [] ↔ hierarchy.Rooted hierarchy.start
  all : hierarchy.ShowsAll ↔ ∀ id < hierarchy.classes.length, hierarchy.Rooted id
  acyclic : hierarchy.Acyclic → hierarchy.ShowsAll

theorem build_showsRooted (ref : repo.Ref) (style : LinkStyle repo) :
    (build ref).ShowsRooted style := by
  have h := (build_wellFormed ref).2
  exact {
    items := trails_element
    classes := fun _ => h.hasItem_iff
    roots := roots_ne_nil_iff
    all := h.showsAll_iff
    acyclic := fun hacyclic => h.showsAll_iff.mpr fun _ => hacyclic.rooted h }

theorem build_showsRooted_box : (build box).Acyclic ∧ (build box).ShowsAll :=
  ⟨acyclic_box, (build_showsRooted box { language := .python }).acyclic acyclic_box⟩

def circles : Repository :=
  .ofDecl {
    space := {
      name := "Foo"
      version := "1.0"
      entities := [
        { name := "A", kind := .classType (some "Foo.B") [] none },
        { name := "B", kind := .classType (some "Foo.A") [] none }] } }

def circle : circles.Ref := ⟨⟨0, by decide⟩, ⟨0, by decide⟩⟩

/-- No class of the circle is without parents, so its tree is empty. -/
theorem not_showsAll_circle : (build circle).roots = [] ∧ ¬ (build circle).ShowsAll := by
  have h := (build_wellFormed circle).2
  have hparents : ∀ id ∈ (build circle).ids, ¬ (build circle).parents id = [] := by
    decide +kernel
  have hroots : (build circle).roots = [] := by
    refine List.eq_nil_iff_forall_not_mem.mpr fun root hroot => ?_
    exact hparents root (List.mem_range.mpr (h.root_lt hroot)) (mem_roots_iff.mp hroot).2
  exact ⟨hroots, fun hall => hall.roots hroots⟩

end Hierarchy

end DocMarkup
