import DocMarkup.Unvisited

/-!
Trees of the paths through a graph.

From a vertex every path is followed until its next step would lead outside the graph or
back to a vertex that is already on it, so each node of the tree is a path without
repetition.
-/

namespace DocMarkup

inductive PathTree (α : Type)
  | node (vertex : α) (branches : List (PathTree α))

namespace PathTree

/-- The tree of the paths that begin with `path`, innermost vertex first, and go on with
`vertex`. -/
def grow [DecidableEq α] (all : List α) (next : α → List α) (path : List α) (vertex : α) :
    PathTree α :=
  let steps := (next vertex).filter fun step => decide (step ∈ all ∧ step ∉ vertex :: path)
  .node vertex (steps.attach.map fun ⟨step, _⟩ => grow all next (vertex :: path) step)
termination_by unvisited all (vertex :: path)
decreasing_by
  rename_i h
  simp only [steps, List.mem_filter, decide_eq_true_eq] at h
  exact unvisited_cons_lt h.2.1 h.2.2

def root : PathTree α → α
  | node vertex _ => vertex

def branches : PathTree α → List (PathTree α)
  | node _ branches => branches

mutual

def vertices : PathTree α → List α
  | node vertex branches => vertex :: verticesOfAll branches

def verticesOfAll : List (PathTree α) → List α
  | [] => []
  | tree :: rest => vertices tree ++ verticesOfAll rest

end

end PathTree

end DocMarkup
