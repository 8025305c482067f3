import DocMarkup.Proofs.Grammar.Substitution

/-!
Expansion piece by piece.

The body of a pattern is the texts of its pieces, one after the other: literal text is kept, and a
placeholder is the body of its target in a group. Its properties are those that are written in it,
and properties of the patterns that it refers to are none of them.
-/

namespace DocMarkup

namespace PatternPiece

def property? : PatternPiece → Option String
  | literal _ => none
  | reference property _ => property

end PatternPiece

namespace NamedPattern

def aliases (pattern : NamedPattern) : List String :=
  pattern.pieces.filterMap PatternPiece.property?

/-- The text is that of the pieces. No literal text follows another one. -/
inductive Inlined (patterns : List NamedPattern) :
    (owner : Option String) → List PatternPiece → List Char → Prop
  | nil {owner : Option String} : Inlined patterns owner [] []
  | literal {owner : Option String} {text body : List Char} {pieces : List PatternPiece}
      (halone : ∀ other rest, pieces ≠ .literal other :: rest)
      (hrest : Inlined patterns owner pieces body) :
      Inlined patterns owner (.literal text :: pieces) (text ++ body)
  | reference {owner property : Option String} {name : String} {target : NamedPattern}
      {inner body : List Char} {pieces : List PatternPiece}
      (hfind : find? patterns name = some target)
      (hinner : Inlined patterns none target.pieces inner)
      (hrest : Inlined patterns owner pieces body) :
      Inlined patterns owner (.reference property name :: pieces)
        (written owner property (groupOf inner) ++ body)

variable {patterns : List NamedPattern} {owner : Option String}

theorem Inlined.consLiteral {pieces : List PatternPiece} {body : List Char}
    (h : Inlined patterns owner pieces body) (char : Char) :
    Inlined patterns owner (NamedPattern.consLiteral char pieces) (char :: body) := by
  cases h with
  | nil => exact .literal (fun _ _ h => nomatch h) .nil
  | literal halone hrest => exact .literal halone hrest
  | reference hfind hinner hrest =>
      exact .literal (fun _ _ h => nomatch h) (.reference hfind hinner hrest)

theorem Substituted.inlined {text body : List Char} (h : Substituted patterns owner text body) :
    Inlined patterns owner (piecesOf text) body := by
  induction h with
  | nil =>
      rw [piecesOf]
      exact .nil
  | @copy _ char rest body hnone _ ih =>
      rw [piecesOf_copy hnone]
      exact ih.consLiteral char
  | placeholder hinside hrefers hfind _ _ ihInner ihRest =>
      rw [piecesOf_placeholder hinside hrefers]
      exact .reference hfind ihInner ihRest

theorem Inlined.unique {pieces : List PatternPiece} {body other : List Char}
    (h : Inlined patterns owner pieces body) (hother : Inlined patterns owner pieces other) :
    body = other := by
  induction h generalizing other with
  | nil =>
      cases hother
      rfl
  | literal _ _ ih =>
      cases hother with
      | literal _ hrest => rw [ih hrest]
  | reference hfind _ _ ihInner ihRest =>
      cases hother with
      | reference hfind' hinner hrest =>
          cases hfind.symm.trans hfind'
          rw [ihInner hinner, ihRest hrest]

theorem Inlined.opens {property : Option String} {name : String} {pieces : List PatternPiece}
    {body : List Char} (h : Inlined patterns owner (.reference property name :: pieces) body) :
    ∃ group, body = '(' :: group := by
  cases h with
  | reference =>
      cases owner with
      | none => exact ⟨_, by rw [written_none]; rfl⟩
      | some owner => cases property <;> exact ⟨_, rfl⟩

/-- The groups in which pieces of the owner capture properties. -/
def propertyGroups (owner : Option String) (pieces : List PatternPiece) : List String :=
  match owner with
  | some owner => (pieces.filterMap PatternPiece.property?).map (groupName owner)
  | none => []

theorem propertyGroups_cons_subset (piece : PatternPiece) (pieces : List PatternPiece) :
    propertyGroups owner pieces ⊆ propertyGroups owner (piece :: pieces) := by
  cases owner with
  | none => exact List.Subset.refl _
  | some owner =>
      exact (((List.sublist_cons_self piece pieces).filterMap _).map (groupName owner)).subset

theorem properties_expandOwn {owner : String} {seen : List String} {pieces : List PatternPiece}
    {store after : Expanded} {body : Body}
    (h : (expandOwn patterns owner seen pieces).run store = .ok (body, after)) :
    body.properties = pieces.filterMap PatternPiece.property? ∧ body.properties.Nodup ∧
      ∀ property ∈ body.properties, property ∉ seen := by
  induction pieces generalizing seen store body with
  | nil =>
      rw [expandOwn, run_pure_eq_ok] at h
      rw [← h.1]
      exact ⟨rfl, List.nodup_nil, List.forall_mem_nil _⟩
  | cons piece pieces ih =>
      cases piece with
      | literal text =>
          rw [expandOwn, run_bind_eq_ok] at h
          obtain ⟨rest, between, hrest, h⟩ := h
          obtain ⟨rfl, rfl⟩ := run_pure_eq_ok.mp h
          have hbody := ih hrest
          exact hbody
      | reference property name =>
          obtain ⟨text, between, rest, -, hseen, hrest, rfl⟩ := run_expandOwn_reference.mp h
          obtain ⟨hproperties, hnodup, hnew⟩ := ih hrest
          simp only [List.mem_append, not_or] at hnew
          cases property with
          | none => exact ⟨hproperties, hnodup, fun key hkey => (hnew key hkey).2⟩
          | some key =>
              refine ⟨congrArg (key :: ·) hproperties, ?_, ?_⟩
              · exact List.nodup_cons.mpr ⟨fun hmem => (hnew key hmem).1 (by simp), hnodup⟩
              · exact List.forall_mem_cons.mpr
                  ⟨hseen key rfl, fun other hmem => (hnew other hmem).2⟩

/-- What a pattern that is matched on its own expands to. -/
structure Expansion (patterns : List NamedPattern) (pattern : NamedPattern)
    (entry : String × Body) : Prop where
  name : entry.1 = pattern.label
  text : Inlined patterns (some pattern.label) pattern.pieces entry.2.text
  properties : entry.2.properties = pattern.aliases
  nodup : entry.2.properties.Nodup

theorem Expands.expansion {pattern : NamedPattern} {entry : String × Body}
    (h : Expands patterns pattern entry) : Expansion patterns pattern entry := by
  have htext := h.substituted.inlined
  obtain ⟨hname, store, after, -, hrun⟩ := h
  obtain ⟨hproperties, hnodup, -⟩ := properties_expandOwn hrun
  exact ⟨hname, htext, hproperties, hnodup⟩

theorem expansion_of_expand {bodies : List (String × Body)} (h : expand patterns = .ok bodies) :
    List.Forall₂ (Expansion patterns) (patterns.filter (!·.isPrivate)) bodies :=
  (expands_of_expand h).2.imp fun _ _ h => h.expansion

theorem exists_expansion {bodies : List (String × Body)} (h : expand patterns = .ok bodies)
    {entry : String × Body} (hmem : entry ∈ bodies) :
    ∃ pattern ∈ patterns, Expansion patterns pattern entry := by
  have hbodies := expansion_of_expand h
  obtain ⟨index, hindex, rfl⟩ := List.mem_iff_getElem.mp hmem
  have hindex' := hbodies.length_eq ▸ hindex
  exact ⟨_, List.mem_of_mem_filter (List.getElem_mem hindex'), hbodies.get hindex' hindex⟩

theorem Expansion.propertyGroups_eq {pattern : NamedPattern} {entry : String × Body}
    (h : Expansion patterns pattern entry) :
    propertyGroups (some pattern.label) pattern.pieces =
      entry.2.properties.map (groupName entry.1) := by
  rw [h.name, h.properties]
  rfl

theorem expand_of_compile [UnicodeClasses] {grammar : Grammar}
    (h : Grammar.compile patterns = .ok grammar) :
    ∃ bodies, expand patterns = .ok bodies := by
  cases hexpand : expand patterns with
  | ok bodies => exact ⟨bodies, rfl⟩
  | error error => simp [Grammar.compile, hexpand, bind, Except.bind] at h

end NamedPattern

end DocMarkup
