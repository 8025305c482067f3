import Mathlib.Data.List.Forall2
import DocMarkup.Page.Element

/-!
Indented trees.

Indentation is written into blank text and blank tails alone, and it is blank itself. So nothing
else in a tree changes, and a tree that is indented again has the indentation of the last time.
-/

namespace DocMarkup.Page.Element

variable {text other : Option String} {blank replacement : String}

/-- The text is the same if it is not blank, and else is blank in both. -/
structure SameButBlank (text other : Option String) : Prop where
  kept : Text.onlyBlank text = false → other = text
  blank : Text.onlyBlank text = true → Text.onlyBlank other = true

theorem SameButBlank.refl (text : Option String) : SameButBlank text text :=
  ⟨fun _ => rfl, id⟩

theorem onlyBlank_lineBreak (level : Nat) : Text.onlyBlank (some (lineBreak level)) = true := by
  simp [lineBreak, Text.isBlank]

theorem onlyBlank_lineBreak_append (level : Nat) :
    Text.onlyBlank (some (lineBreak level ++ "  ")) = true := by
  have hbreak := onlyBlank_lineBreak level
  rw [Text.onlyBlank_some] at hbreak ⊢
  rw [String.toList_append, List.all_append, hbreak]
  decide

theorem onlyBlank_replaceBlank (hreplacement : Text.onlyBlank (some replacement) = true) :
    Text.onlyBlank (replaceBlank text replacement) = Text.onlyBlank text := by
  unfold replaceBlank
  split
  · next htext => rw [hreplacement, htext]
  · rfl

theorem replaceBlank_replaceBlank (hblank : Text.onlyBlank (some blank) = true) :
    replaceBlank (replaceBlank text blank) replacement = replaceBlank text replacement := by
  rw [replaceBlank, onlyBlank_replaceBlank hblank, replaceBlank, replaceBlank]
  split <;> rfl

theorem SameButBlank.replaceBlank (h : SameButBlank text other)
    (hreplacement : Text.onlyBlank (some replacement) = true) :
    SameButBlank text (replaceBlank other replacement) where
  kept htext := by
    cases h.kept htext
    rw [Element.replaceBlank, htext, if_neg Bool.false_ne_true]
  blank htext := (onlyBlank_replaceBlank hreplacement).trans (h.blank htext)

section

variable {change : Element → Element}

theorem map_modifyLast {β : Type} {f : Element → β} (h : ∀ element, f (change element) = f element)
    (elements : List Element) : (modifyLast change elements).map f = elements.map f := by
  fun_induction modifyLast change elements with
  | case1 => rfl
  | case2 last => rw [List.map_singleton, List.map_singleton, h]
  | case3 element rest _ ih => rw [List.map_cons, List.map_cons, ih]

theorem forall₂_modifyLast {relation : Element → Element → Prop}
    (h : ∀ {first second}, relation first second → relation first (change second))
    {first second : List Element} (helements : List.Forall₂ relation first second) :
    List.Forall₂ relation first (modifyLast change second) := by
  induction helements with
  | nil => exact .nil
  | cons hhead htail ih =>
      cases htail with
      | nil => exact .cons (h hhead) .nil
      | cons => exact .cons hhead ih

end

theorem indentAll_eq_map (level : Nat) (elements : List Element) :
    indentAll level elements = elements.map (indent level) := by
  induction elements with
  | nil => rfl
  | cons element rest ih => rw [indentAll, ih, List.map_cons]

theorem indent_leaf (level : Nat) (name : String) (attributes : Attributes)
    (text tail : Option String) :
    indent level ⟨name, attributes, text, tail, []⟩ =
      ⟨name, attributes, text,
        if level = 0 then tail else replaceBlank tail (lineBreak level), []⟩ := by
  rw [indent]

theorem indent_node (level : Nat) (name : String) (attributes : Attributes)
    (text tail : Option String) {children : List Element} (hchildren : children ≠ []) :
    indent level ⟨name, attributes, text, tail, children⟩ =
      ⟨name, attributes, replaceBlank text (lineBreak level ++ "  "),
        replaceBlank tail (lineBreak level),
        modifyLast (withBlankTail · (lineBreak level))
          (children.map (indent (level + 1)))⟩ := by
  cases children with
  | nil => exact absurd rfl hchildren
  | cons child rest => rw [indent, indentAll_eq_map, List.map_cons]

theorem modifyLast_ne_nil {change : Element → Element} {elements : List Element}
    (h : elements ≠ []) : modifyLast change elements ≠ [] := by
  fun_cases modifyLast change elements <;> simp_all

theorem indent_withBlankTail {level : Nat} (hlevel : 0 < level)
    (hblank : Text.onlyBlank (some blank) = true) (element : Element) :
    indent level (element.withBlankTail blank) = indent level element := by
  obtain ⟨name, attributes, text, tail, children⟩ := element
  rw [withBlankTail]
  by_cases hchildren : children = []
  · have hne : level ≠ 0 := Nat.ne_of_gt hlevel
    subst hchildren
    rw [indent_leaf, indent_leaf, if_neg hne, if_neg hne,
      replaceBlank_replaceBlank hblank]
  · rw [indent_node _ _ _ _ _ hchildren, indent_node _ _ _ _ _ hchildren,
      replaceBlank_replaceBlank hblank]

mutual

theorem indent_indent (level earlier : Nat) :
    ∀ element : Element, element.children ≠ [] ∨ 0 < level →
      indent level (indent earlier element) = indent level element
  | ⟨name, attributes, text, tail, []⟩, h => by
      have hlevel : level ≠ 0 := Nat.ne_of_gt (h.resolve_left fun h => h rfl)
      rw [indent_leaf, indent_leaf, indent_leaf, if_neg hlevel, if_neg hlevel]
      split
      · rfl
      · rw [replaceBlank_replaceBlank (onlyBlank_lineBreak earlier)]
  | ⟨name, attributes, text, tail, child :: rest⟩, _ => by
      have hchildren : child :: rest ≠ [] := List.cons_ne_nil _ _
      -- The tail that the last child has got from its parent is blank, and is written over.
      rw [indent_node earlier _ _ _ _ hchildren, indent_node level _ _ _ _ hchildren,
        indent_node _ _ _ _ _ (modifyLast_ne_nil (by simp)),
        replaceBlank_replaceBlank (onlyBlank_lineBreak earlier),
        replaceBlank_replaceBlank (onlyBlank_lineBreak_append earlier),
        map_modifyLast (indent_withBlankTail (Nat.succ_pos level) (onlyBlank_lineBreak earlier)),
        map_indent_indent level earlier (child :: rest)]

theorem map_indent_indent (level earlier : Nat) :
    ∀ elements : List Element,
      (elements.map (indent (earlier + 1))).map (indent (level + 1)) =
        elements.map (indent (level + 1))
  | [] => rfl
  | element :: rest => by
      rw [List.map_cons, List.map_cons, List.map_cons,
        indent_indent (level + 1) (earlier + 1) element (.inr (Nat.succ_pos level)),
        map_indent_indent level earlier rest]

end

/-- The trees have the same elements, and only blank texts and blank tails in the one are others
in the other, where they are blank too. Elements without children have the same text. -/
inductive Reindented : Element → Element → Prop
  | node {name : String} {attributes : Attributes} {text otherText tail otherTail : Option String}
      {children otherChildren : List Element} (htext : SameButBlank text otherText)
      (hleaf : children = [] → otherText = text) (htail : SameButBlank tail otherTail)
      (hchildren : List.Forall₂ Reindented children otherChildren) :
      Reindented ⟨name, attributes, text, tail, children⟩
        ⟨name, attributes, otherText, otherTail, otherChildren⟩

theorem Reindented.withBlankTail {first second : Element} (h : Reindented first second)
    (hblank : Text.onlyBlank (some blank) = true) :
    Reindented first (second.withBlankTail blank) := by
  cases h with
  | node htext hleaf htail hchildren =>
      exact .node htext hleaf (htail.replaceBlank hblank) hchildren

mutual

theorem reindented_indent (level : Nat) :
    ∀ element : Element, Reindented element (indent level element)
  | ⟨name, attributes, text, tail, []⟩ => by
      rw [indent_leaf]
      refine .node (.refl text) (fun _ => rfl) ?_ .nil
      split
      · exact .refl tail
      · exact (SameButBlank.refl tail).replaceBlank (onlyBlank_lineBreak level)
  | ⟨name, attributes, text, tail, child :: rest⟩ => by
      rw [indent_node level _ _ _ _ (List.cons_ne_nil child rest)]
      refine .node ((SameButBlank.refl text).replaceBlank (onlyBlank_lineBreak_append level))
        (fun h => absurd h (List.cons_ne_nil _ _))
        ((SameButBlank.refl tail).replaceBlank (onlyBlank_lineBreak level)) ?_
      exact forall₂_modifyLast (fun h => h.withBlankTail (onlyBlank_lineBreak level))
        (forall₂_indent (level + 1) (child :: rest))

theorem forall₂_indent (level : Nat) :
    ∀ elements : List Element,
      List.Forall₂ Reindented elements (elements.map (indent level))
  | [] => .nil
  | element :: rest => .cons (reindented_indent level element) (forall₂_indent level rest)

end

/-- A tree that is indented again has the indentation of the last time, except that at the top
level an element without children keeps its tail. Nothing that is not blank is changed. -/
theorem indent_settles (level earlier : Nat) (element : Element) :
    (element.children ≠ [] ∨ 0 < level →
      indent level (indent earlier element) = indent level element) ∧
    indent level (indent level element) = indent level element ∧
    Reindented element (indent level element) := by
  refine ⟨indent_indent level earlier element, ?_, reindented_indent level element⟩
  by_cases h : element.children ≠ [] ∨ 0 < level
  · exact indent_indent level level element h
  · obtain ⟨hchildren, hlevel⟩ := not_or.mp h
    obtain ⟨name, attributes, text, tail, children⟩ := element
    cases Nat.eq_zero_of_not_pos hlevel
    cases not_not.mp hchildren
    rw [indent_leaf, indent_leaf, if_pos rfl]

theorem indent_settles_nested :
    let tree : Element := { name := "tree", children := [{ name := "item" }] }
    (tree.children ≠ [] ∨ 0 < 0) ∧ indent 0 (indent 3 tree) = indent 0 tree := by
  intro tree
  have hchildren : tree.children ≠ [] := List.cons_ne_nil _ _
  exact ⟨.inl hchildren, (indent_settles 0 3 tree).1 (.inl hchildren)⟩

end DocMarkup.Page.Element
