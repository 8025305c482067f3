/-!
How many members of a list were not visited yet: the measure of every recursion that visits
no member twice.
-/

namespace DocMarkup

def unvisited [DecidableEq α] (all visited : List α) : Nat :=
  (all.filter fun member => decide (member ∉ visited)).length

theorem unvisited_cons_le [DecidableEq α] (all visited : List α) (member : α) :
    unvisited all (member :: visited) ≤ unvisited all visited := by
  unfold unvisited
  rw [← List.countP_eq_length_filter, ← List.countP_eq_length_filter]
  refine List.countP_mono_left fun other _ h => ?_
  simp only [List.mem_cons, not_or, decide_eq_true_eq] at h ⊢
  exact h.2

theorem unvisited_cons_lt [DecidableEq α] {all visited : List α} {member : α}
    (hmem : member ∈ all) (hnew : member ∉ visited) :
    unvisited all (member :: visited) < unvisited all visited := by
  obtain ⟨before, after, rfl⟩ := List.append_of_mem hmem
  have hbefore := unvisited_cons_le before visited member
  have hafter := unvisited_cons_le after visited member
  simp only [unvisited, List.filter_append, List.length_append] at hbefore hafter ⊢
  rw [List.filter_cons_of_neg (by simp), List.filter_cons_of_pos (by simpa using hnew)]
  simp only [List.length_cons]
  omega

end DocMarkup
