import Mathlib.Data.List.Nodup
import DocMarkup.PathTree

/-!
The walks of a tree of paths.

Each node stands for the walk that leads to it from the root. The nodes of a tree grown from a
vertex are all walks from there that come to no vertex twice, each once and in the order of a
depth-first search: a walk before those that go on from it, and these in the order of the steps
that can be taken.
-/

namespace DocMarkup.PathTree

variable {α : Type}

mutual

def walks : PathTree α → List (List α)
  | node vertex branches => [vertex] :: (walksOfAll branches).map (vertex :: ·)

def walksOfAll : List (PathTree α) → List (List α)
  | [] => []
  | tree :: rest => walks tree ++ walksOfAll rest

end

theorem mem_walksOfAll_iff {trees : List (PathTree α)} {walk : List α} :
    walk ∈ walksOfAll trees ↔ ∃ tree ∈ trees, walk ∈ tree.walks := by
  induction trees with
  | nil => simp [walksOfAll]
  | cons tree rest ih => simp [walksOfAll, ih]

theorem exists_of_mem_walks {tree : PathTree α} {walk : List α} (h : walk ∈ tree.walks) :
    ∃ rest, walk = tree.root :: rest := by
  cases tree with
  | node vertex branches =>
      rcases List.mem_cons.mp h with rfl | h
      · exact ⟨[], rfl⟩
      · obtain ⟨rest, -, rfl⟩ := List.mem_map.mp h
        exact ⟨rest, rfl⟩

/-- The walk takes one step after the other, and comes to no vertex twice or to one of `path`. -/
structure Walk (next : α → List α) (path walk : List α) : Prop where
  steps : walk.IsChain fun vertex step => step ∈ next vertex
  nodup : walk.Nodup
  apart : ∀ vertex ∈ walk, vertex ∉ path

variable {all path walk rest choices : List α} {next : α → List α} {vertex : α}

theorem walk_singleton (hvertex : vertex ∉ path) : Walk next path [vertex] where
  steps := .singleton vertex
  nodup := List.nodup_singleton vertex
  apart := List.forall_mem_singleton.mpr hvertex

theorem walk_cons_iff {step : α} :
    Walk next path (vertex :: step :: rest) ↔
      (vertex ∉ path ∧ step ∈ next vertex) ∧ Walk next (vertex :: path) (step :: rest) := by
  constructor
  · rintro ⟨hsteps, hnodup, hapart⟩
    obtain ⟨hstep, hsteps⟩ := List.isChain_cons_cons.mp hsteps
    obtain ⟨hvertex, hnodup⟩ := List.nodup_cons.mp hnodup
    obtain ⟨hfirst, hapart⟩ := List.forall_mem_cons.mp hapart
    refine ⟨⟨hfirst, hstep⟩, hsteps, hnodup, fun other hother => List.mem_cons.not.mpr ?_⟩
    exact not_or.mpr ⟨fun heq => hvertex (heq ▸ hother), hapart other hother⟩
  · rintro ⟨⟨hfirst, hstep⟩, hsteps, hnodup, hapart⟩
    refine ⟨.cons_cons hstep hsteps, List.nodup_cons.mpr ⟨fun hmem => ?_, hnodup⟩, ?_⟩
    · exact hapart vertex hmem List.mem_cons_self
    · exact List.forall_mem_cons.mpr ⟨hfirst, fun other hother hmem =>
        hapart other hother (List.mem_cons_of_mem _ hmem)⟩

/-- Walks in the order of a depth-first search, where `choices` are the vertices that one can begin
with. -/
inductive Before (next : α → List α) : List α → List α → List α → Prop
  | shorter {choices walk : List α} {vertex : α} : Before next choices [] (vertex :: walk)
  | apart {choices walk other : List α} {first second : α}
      (hchoices : [first, second].Sublist choices) :
      Before next choices (first :: walk) (second :: other)
  | within {choices walk other : List α} {vertex : α}
      (hrest : Before next (next vertex) walk other) :
      Before next choices (vertex :: walk) (vertex :: other)

theorem Before.ne {first second : List α} (h : Before next choices first second)
    (hnext : ∀ vertex, (next vertex).Nodup) (hchoices : choices.Nodup) : first ≠ second := by
  induction h with
  | shorter => exact (List.cons_ne_nil _ _).symm
  | apart hsublist =>
      have hnotmem := (List.nodup_cons.mp (hchoices.sublist hsublist)).1
      exact fun heq => hnotmem (List.mem_singleton.mpr (List.cons.inj heq).1)
  | within _ ih => exact fun heq => ih (hnext _) (List.cons.inj heq).2

section

variable [DecidableEq α]

def openSteps (all : List α) (next : α → List α) (path : List α) (vertex : α) : List α :=
  (next vertex).filter fun step => decide (step ∈ all ∧ step ∉ vertex :: path)

theorem grow_eq (all : List α) (next : α → List α) (path : List α) (vertex : α) :
    grow all next path vertex =
      .node vertex ((openSteps all next path vertex).map (grow all next (vertex :: path))) := by
  rw [grow, List.attach_map_val]
  rfl

/-- Induction along the steps that lead off a path. -/
@[elab_as_elim]
theorem grow_elim (all : List α) (next : α → List α) {holds : List α → α → Prop}
    (node : ∀ path vertex,
      (∀ step ∈ openSteps all next path vertex, holds (vertex :: path) step) →
        holds path vertex)
    (path : List α) (vertex : α) : holds path vertex :=
  grow.induct all next holds node path vertex

theorem root_grow : (grow all next path vertex).root = vertex := by
  rw [grow_eq]
  rfl

theorem mem_openSteps_iff (hall : ∀ vertex, ∀ step ∈ next vertex, step ∈ all) {step : α} :
    step ∈ openSteps all next path vertex ↔ step ∈ next vertex ∧ step ∉ vertex :: path := by
  rw [openSteps, List.mem_filter, decide_eq_true_eq]
  exact and_congr_right fun hstep => and_iff_right (hall vertex step hstep)

theorem mem_walks_grow_cons_iff :
    vertex :: rest ∈ (grow all next path vertex).walks ↔
      rest = [] ∨ ∃ step ∈ openSteps all next path vertex,
        rest ∈ (grow all next (vertex :: path) step).walks := by
  rw [grow_eq, walks, List.mem_cons, List.mem_map_of_injective (List.cons_injective),
    mem_walksOfAll_iff]
  simp

theorem mem_walks_grow_iff (hall : ∀ vertex, ∀ step ∈ next vertex, step ∈ all)
    (hvertex : vertex ∉ path) :
    walk ∈ (grow all next path vertex).walks ↔
      walk.head? = some vertex ∧ Walk next path walk := by
  induction path, vertex using grow_elim all next generalizing walk with
  | node path vertex ih =>
      constructor
      · intro h
        obtain ⟨rest, rfl⟩ := exists_of_mem_walks h
        rw [root_grow] at h ⊢
        refine ⟨rfl, ?_⟩
        rcases mem_walks_grow_cons_iff.mp h with rfl | ⟨step, hstep, hrest⟩
        · exact walk_singleton hvertex
        · obtain ⟨hnext, hnew⟩ := (mem_openSteps_iff hall).mp hstep
          obtain ⟨hhead, hwalk⟩ := (ih step hstep hnew).mp hrest
          obtain ⟨more, rfl⟩ := List.head?_eq_some_iff.mp hhead
          exact walk_cons_iff.mpr ⟨⟨hvertex, hnext⟩, hwalk⟩
      · rintro ⟨hhead, hwalk⟩
        obtain ⟨rest, rfl⟩ := List.head?_eq_some_iff.mp hhead
        rw [mem_walks_grow_cons_iff]
        cases rest with
        | nil => exact .inl rfl
        | cons step more =>
            obtain ⟨⟨-, hnext⟩, hrest⟩ := walk_cons_iff.mp hwalk
            have hnew := hrest.apart step List.mem_cons_self
            have hstep := (mem_openSteps_iff hall).mpr ⟨hnext, hnew⟩
            exact .inr ⟨step, hstep, (ih step hstep hnew).mpr ⟨rfl, hrest⟩⟩

theorem sorted_walksOfAll {roots : List α} (hroots : roots.Sublist choices)
    (h : ∀ root ∈ roots, (grow all next path root).walks.Pairwise (Before next choices)) :
    (walksOfAll (roots.map (grow all next path))).Pairwise (Before next choices) := by
  induction roots with
  | nil => exact .nil
  | cons root rest ih =>
      obtain ⟨hroot, hrest⟩ := List.forall_mem_cons.mp h
      rw [List.map_cons, walksOfAll, List.pairwise_append]
      refine ⟨hroot, ih (List.sublist_of_cons_sublist hroots) hrest, ?_⟩
      intro first hfirst second hsecond
      obtain ⟨tree, htree, hsecond⟩ := mem_walksOfAll_iff.mp hsecond
      obtain ⟨other, hother, rfl⟩ := List.mem_map.mp htree
      obtain ⟨firstRest, rfl⟩ := exists_of_mem_walks hfirst
      obtain ⟨secondRest, rfl⟩ := exists_of_mem_walks hsecond
      rw [root_grow, root_grow]
      exact .apart (.trans (.cons_cons root (List.singleton_sublist.mpr hother)) hroots)

theorem sorted_walks_grow (choices : List α) :
    (grow all next path vertex).walks.Pairwise (Before next choices) := by
  induction path, vertex using grow_elim all next generalizing choices with
  | node path vertex ih =>
      rw [grow_eq, walks, List.pairwise_cons]
      constructor
      · intro walk hwalk
        obtain ⟨rest, hrest, rfl⟩ := List.mem_map.mp hwalk
        obtain ⟨tree, -, hrest⟩ := mem_walksOfAll_iff.mp hrest
        obtain ⟨more, rfl⟩ := exists_of_mem_walks hrest
        exact .within .shorter
      · refine List.pairwise_map.mpr (List.Pairwise.imp .within ?_)
        exact sorted_walksOfAll List.filter_sublist fun step hstep => ih step hstep _

end

end DocMarkup.PathTree
