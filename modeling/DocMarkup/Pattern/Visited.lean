/-!
What was met so far, in a search tree.

Every item comes with a label. The tree is ordered by labels, so that few items are compared;
which items it holds does not depend on them.
-/

namespace DocMarkup

inductive Visited (α : Type)
  | nothing
  /-- The items with a label, and the trees of those with other labels. -/
  | node (label : UInt64) (items : List α) (lower higher : Visited α)
  deriving Repr

namespace Visited

variable {α : Type} [DecidableEq α]

def contains (label : UInt64) (item : α) : Visited α → Bool
  | nothing => false
  | node here items lower higher =>
      if label = here then items.contains item
      else if label < here then lower.contains label item
      else higher.contains label item

def insert (label : UInt64) (item : α) : Visited α → Visited α
  | nothing => node label [item] nothing nothing
  | node here items lower higher =>
      if label = here then node here (item :: items) lower higher
      else if label < here then node here items (lower.insert label item) higher
      else node here items lower (higher.insert label item)

@[simp] theorem contains_nothing (label : UInt64) (item : α) :
    (nothing : Visited α).contains label item = false := rfl

theorem contains_insert_self (visited : Visited α) (label : UInt64) (item met : α) :
    (visited.insert label item).contains label met =
      (met == item || visited.contains label met) := by
  induction visited with
  | nothing => simp [insert, contains, Bool.beq_eq_decide_eq]
  | node here items lower higher ihLower ihHigher =>
      simp only [insert]
      split
      · simp_all [contains, Bool.beq_eq_decide_eq]
      · next hne =>
          split
          · next hlt => simp only [contains, if_neg hne, if_pos hlt, ihLower]
          · next hge => simp only [contains, if_neg hne, if_neg hge, ihHigher]

theorem contains_insert_of_ne (visited : Visited α) {label other : UInt64} (item met : α)
    (h : other ≠ label) :
    (visited.insert label item).contains other met = visited.contains other met := by
  induction visited with
  | nothing => simp [insert, contains, h]
  | node here items lower higher ihLower ihHigher =>
      simp only [insert]
      split
      · simp_all [contains]
      · split <;> simp only [contains, ihLower, ihHigher]

end Visited

end DocMarkup
