import Mathlib.Data.List.Chain
import Mathlib.Logic.Relation
import DocMarkup.Proofs.Grammar.Substitution

/-!
Cycles of references.

A pattern refers to those whose names stand in its placeholders. Expansion fails for public
patterns that lead into a cycle of references or capture a property twice, and for no others,
and what it reports as a cycle is one.
-/

namespace DocMarkup

namespace NamedPattern

/-- The text has this placeholder in it, wherever it stands. -/
def HasPlaceholder (text : List Char) (property : Option String) (name : String) : Prop :=
  ∃ before content after, text = before ++ placeholderOf content ++ after ∧ IsInside content ∧
    Refers content property name

/-- The text has two placeholders in it that capture the property. -/
def HasTwice (text : List Char) (property : String) : Prop :=
  ∃ before content after name other, text = before ++ placeholderOf content ++ after ∧
    IsInside content ∧ Refers content (some property) name ∧
    HasPlaceholder after (some property) other

theorem placeholderOf_append (content rest : List Char) :
    placeholderOf content ++ rest = '<' :: '<' :: (content ++ '>' :: '>' :: rest) := by
  simp [placeholderOf]

theorem IsInside.less_not_mem {content : List Char} (h : IsInside content) : '<' ∉ content :=
  fun hmem => absurd (h.chars _ hmem) (by decide)

theorem placeholder_cases {content rest before other after : List Char}
    (hcontent : IsInside content) (hother : IsInside other)
    (h : placeholderOf content ++ rest = before ++ placeholderOf other ++ after) :
    (before = [] ∧ content = other ∧ rest = after) ∨
      ∃ middle, before = placeholderOf content ++ middle ∧
        rest = middle ++ placeholderOf other ++ after := by
  match before with
  | [] => exact .inl ⟨rfl, placeholderOf_inj hcontent hother h⟩
  | [first] =>
      -- The second character of the inner placeholder would be the first of the content.
      obtain ⟨char, content, rfl⟩ := List.exists_cons_of_ne_nil hcontent.nonempty
      simp only [placeholderOf_append, List.cons_append, List.nil_append, List.cons.injEq] at h
      obtain ⟨-, -, rfl, -⟩ := h
      exact absurd List.mem_cons_self hcontent.less_not_mem
  | first :: second :: before =>
      simp only [List.append_assoc, placeholderOf_append, List.cons_append, List.cons.injEq] at h
      obtain ⟨rfl, rfl, h⟩ := h
      obtain ⟨middle, rfl, hrest⟩ | ⟨inner, rfl, hinner⟩ := List.append_eq_append_iff.mp h
      · match middle with
        | [] => simp at hrest
        | [_] => simp at hrest
        | _ :: _ :: middle =>
            simp only [List.cons_append, List.cons.injEq] at hrest
            obtain ⟨rfl, rfl, rfl⟩ := hrest
            exact .inr ⟨middle, by simp [placeholderOf], by simp [placeholderOf]⟩
      · cases inner with
        | nil => simp at hinner
        | cons char inner =>
            simp only [List.cons_append, List.cons.injEq] at hinner
            obtain ⟨rfl, -⟩ := hinner
            exact absurd (by simp) hcontent.less_not_mem

section

variable {char : Char} {content rest : List Char} {property : Option String} {name : String}

theorem not_hasPlaceholder_nil : ¬ HasPlaceholder [] property name := by
  rintro ⟨before, content, after, h, -⟩
  simp [placeholderOf] at h

theorem not_hasTwice_nil {key : String} : ¬ HasTwice [] key := by
  rintro ⟨before, content, after, name, other, h, -⟩
  simp [placeholderOf] at h

theorem copy_cases
    (hnone : ∀ content after, IsInside content → char :: rest ≠ placeholderOf content ++ after)
    {before other after : List Char} (hother : IsInside other)
    (h : char :: rest = before ++ placeholderOf other ++ after) :
    ∃ middle, before = char :: middle ∧ rest = middle ++ placeholderOf other ++ after := by
  cases before with
  | nil => exact absurd h (hnone other after hother)
  | cons first middle =>
      cases h
      exact ⟨middle, rfl, rfl⟩

theorem hasPlaceholder_copy
    (hnone : ∀ content after, IsInside content → char :: rest ≠ placeholderOf content ++ after) :
    HasPlaceholder (char :: rest) property name ↔ HasPlaceholder rest property name := by
  constructor
  · rintro ⟨before, content, after, htext, hinside, hrefers⟩
    obtain ⟨middle, -, hrest⟩ := copy_cases hnone hinside htext
    exact ⟨middle, content, after, hrest, hinside, hrefers⟩
  · rintro ⟨before, content, after, rfl, hinside, hrefers⟩
    exact ⟨char :: before, content, after, rfl, hinside, hrefers⟩

theorem hasTwice_copy {key : String}
    (hnone : ∀ content after, IsInside content → char :: rest ≠ placeholderOf content ++ after) :
    HasTwice (char :: rest) key ↔ HasTwice rest key := by
  constructor
  · rintro ⟨before, content, after, name, other, htext, hinside, hrefers, hafter⟩
    obtain ⟨middle, -, hrest⟩ := copy_cases hnone hinside htext
    exact ⟨middle, content, after, name, other, hrest, hinside, hrefers, hafter⟩
  · rintro ⟨before, content, after, name, other, rfl, hinside, hrefers, hafter⟩
    exact ⟨char :: before, content, after, name, other, rfl, hinside, hrefers, hafter⟩

theorem hasPlaceholder_placeholder (hinside : IsInside content)
    (hrefers : Refers content property name) {key : Option String} {target : String} :
    HasPlaceholder (placeholderOf content ++ rest) key target ↔
      (key = property ∧ target = name) ∨ HasPlaceholder rest key target := by
  constructor
  · rintro ⟨before, other, after, htext, hother, hkey⟩
    obtain ⟨-, rfl, -⟩ | ⟨middle, -, hrest⟩ := placeholder_cases hinside hother htext
    · exact .inl (hkey.unique hrefers)
    · exact .inr ⟨middle, other, after, hrest, hother, hkey⟩
  · rintro (⟨rfl, rfl⟩ | ⟨before, other, after, rfl, hother, hkey⟩)
    · exact ⟨[], content, rest, rfl, hinside, hrefers⟩
    · exact ⟨placeholderOf content ++ before, other, after, by simp, hother, hkey⟩

theorem hasTwice_placeholder (hinside : IsInside content)
    (hrefers : Refers content property name) {key : String} :
    HasTwice (placeholderOf content ++ rest) key ↔
      (property = some key ∧ ∃ target, HasPlaceholder rest (some key) target) ∨
        HasTwice rest key := by
  constructor
  · rintro ⟨before, other, after, target, last, htext, hother, hkey, hafter⟩
    obtain ⟨-, rfl, rfl⟩ | ⟨middle, -, hrest⟩ := placeholder_cases hinside hother htext
    · exact .inl ⟨(hrefers.unique hkey).1, last, hafter⟩
    · exact .inr ⟨middle, other, after, target, last, hrest, hother, hkey, hafter⟩
  · rintro (⟨rfl, target, hafter⟩ | ⟨before, other, after, target, last, rfl, hother, hkey, hafter⟩)
    · exact ⟨[], content, rest, name, target, rfl, hinside, hrefers, hafter⟩
    · exact ⟨placeholderOf content ++ before, other, after, target, last, by simp, hother, hkey,
        hafter⟩

end

def captures (pieces : List PatternPiece) : List String :=
  pieces.filterMap fun
    | .literal _ => none
    | .reference property _ => property

theorem captures_consLiteral (char : Char) (pieces : List PatternPiece) :
    captures (consLiteral char pieces) = captures pieces := by
  cases pieces with
  | nil => rfl
  | cons piece pieces => cases piece <;> rfl

theorem captures_reference (property : Option String) (name : String)
    (pieces : List PatternPiece) :
    captures (.reference property name :: pieces) = property.toList ++ captures pieces := by
  cases property <;> rfl

theorem reference_mem_consLiteral {char : Char} {pieces : List PatternPiece}
    {property : Option String} {name : String} :
    .reference property name ∈ consLiteral char pieces ↔ .reference property name ∈ pieces := by
  cases pieces with
  | nil => simp [consLiteral]
  | cons piece pieces => cases piece <;> simp [consLiteral]

theorem reference_mem_piecesOf {text : List Char} {property : Option String} {name : String} :
    .reference property name ∈ piecesOf text ↔ HasPlaceholder text property name := by
  induction text using placeholder_induction with
  | nil => simp [piecesOf, not_hasPlaceholder_nil]
  | copy char rest hnone ih =>
      rw [piecesOf_copy hnone, reference_mem_consLiteral, hasPlaceholder_copy hnone, ih]
  | placeholder content rest key target hinside hrefers ih =>
      rw [piecesOf_placeholder hinside hrefers, List.mem_cons,
        hasPlaceholder_placeholder hinside hrefers, ih, PatternPiece.reference.injEq]

theorem mem_captures_piecesOf {text : List Char} {key : String} :
    key ∈ captures (piecesOf text) ↔ ∃ name, HasPlaceholder text (some key) name := by
  simp only [← reference_mem_piecesOf]
  constructor
  · intro h
    obtain ⟨piece, hmem, hkey⟩ := List.mem_filterMap.mp h
    cases piece with
    | literal text => cases hkey
    | reference property name =>
        cases hkey
        exact ⟨name, hmem⟩
  · rintro ⟨name, h⟩
    exact List.mem_filterMap.mpr ⟨_, h, rfl⟩

theorem hasTwice_iff_count {text : List Char} {key : String} :
    HasTwice text key ↔ 2 ≤ (captures (piecesOf text)).count key := by
  induction text using placeholder_induction with
  | nil => simp [piecesOf, captures, not_hasTwice_nil]
  | copy char rest hnone ih =>
      rw [piecesOf_copy hnone, captures_consLiteral, hasTwice_copy hnone, ih]
  | placeholder content rest property name hinside hrefers ih =>
      rw [piecesOf_placeholder hinside hrefers, captures_reference, List.count_append,
        hasTwice_placeholder hinside hrefers, ← mem_captures_piecesOf, ← List.count_pos_iff, ih]
      by_cases hkey : property = some key
      · simp only [hkey, true_and, Option.toList_some, List.count_singleton_self]
        omega
      · have hcount : property.toList.count key = 0 := by
          rw [List.count_eq_zero, Option.mem_toList]
          exact hkey
        simp [hkey, hcount]

def Mentions (pattern : NamedPattern) (name : String) : Prop :=
  ∃ property, HasPlaceholder pattern.source.toList property name

def CapturesTwice (pattern : NamedPattern) (property : String) : Prop :=
  HasTwice pattern.source.toList property

def RefersTo (patterns : List NamedPattern) (name other : String) : Prop :=
  ∃ pattern ∈ patterns, pattern.label = name ∧ pattern.Mentions other

/-- Each name of the path refers to the next one, the last is the first, and no other name is
there twice. -/
def IsCycle (patterns : List NamedPattern) (path : List String) : Prop :=
  ∃ start inner, path = start :: inner ++ [start] ∧ (start :: inner).Nodup ∧
    path.IsChain (RefersTo patterns)

/-- References lead from the name to one that refers back to itself. -/
def ReachesCycle (patterns : List NamedPattern) (start : String) : Prop :=
  ∃ name, Relation.ReflTransGen (RefersTo patterns) start name ∧
    Relation.TransGen (RefersTo patterns) name name

variable {patterns : List NamedPattern}

theorem mem_references {pattern : NamedPattern} {name : String} :
    name ∈ pattern.references ↔ pattern.Mentions name := by
  simp only [Mentions, ← reference_mem_piecesOf]
  constructor
  · intro h
    obtain ⟨piece, hmem, hname⟩ := List.mem_filterMap.mp h
    cases piece with
    | literal text => cases hname
    | reference property target =>
        cases hname
        exact ⟨property, hmem⟩
  · rintro ⟨property, h⟩
    exact List.mem_filterMap.mpr ⟨_, h, rfl⟩

theorem transGen_of_isChain {names : List String} {first last : String}
    (h : (first :: names ++ [last]).IsChain (RefersTo patterns)) :
    Relation.TransGen (RefersTo patterns) first last := by
  induction names generalizing first with
  | nil => exact .single (List.isChain_pair.mp h)
  | cons next names ih =>
      rw [List.cons_append, List.cons_append, List.isChain_cons_cons] at h
      exact .head h.1 (ih h.2)

/-- Names are declared once, and what is mentioned is declared. -/
structure Declared (patterns : List NamedPattern) : Prop where
  nodup : (labels patterns).Nodup
  known : ∀ pattern ∈ patterns, ∀ name, pattern.Mentions name → name ∈ labels patterns

theorem find?_eq_none_iff {name : String} :
    find? patterns name = none ↔ name ∉ labels patterns := by
  simp [find?, labels]

theorem duplicate_of_repeatedName? {seen : List String} {name : String}
    (h : repeatedName? seen patterns = some name) :
    2 ≤ (seen ++ labels patterns).count name := by
  induction patterns generalizing seen with
  | nil => cases h
  | cons pattern patterns ih =>
      have hmove : (seen ++ labels (pattern :: patterns)).count name =
          (pattern.label :: seen ++ labels patterns).count name := by
        simp only [labels, List.map_cons, List.count_append, List.count_cons]
        omega
      rw [repeatedName?] at h
      split at h
      · next hseen =>
          cases h
          rw [hmove, List.cons_append, List.count_cons_self, List.count_append]
          have hpos := List.count_pos_iff.mpr hseen
          omega
      · rw [hmove]
        exact ih h

theorem repeatedName?_eq_none {seen : List String} (h : (seen ++ labels patterns).Nodup) :
    repeatedName? seen patterns = none := by
  cases hrepeated : repeatedName? seen patterns with
  | none => rfl
  | some name =>
      have htwice := duplicate_of_repeatedName? hrepeated
      have honce := List.nodup_iff_count_le_one.mp h name
      omega

theorem unknown_of_unknownReference? {error : GrammarError}
    (h : unknownReference? patterns = some error) :
    ∃ pattern ∈ patterns, ∃ name, pattern.Mentions name ∧ name ∉ labels patterns ∧
      error = .unknownReference pattern.label name := by
  obtain ⟨pattern, hmem, hfound⟩ := List.exists_of_findSome?_eq_some h
  obtain ⟨name, hname, rfl⟩ := Option.map_eq_some_iff.mp hfound
  have hnone : find? patterns name = none := by simpa using List.find?_some hname
  exact ⟨pattern, hmem, name, mem_references.mp (List.mem_of_find?_eq_some hname),
    find?_eq_none_iff.mp hnone, rfl⟩

theorem known_of_unknownReference? (h : unknownReference? patterns = none) :
    ∀ pattern ∈ patterns, ∀ name, pattern.Mentions name → name ∈ labels patterns := by
  intro pattern hmem name hmentions
  have hnone := List.findSome?_eq_none_iff.mp h pattern hmem
  rw [Option.map_eq_none_iff, List.find?_eq_none] at hnone
  by_contra hunknown
  exact hnone name (mem_references.mpr hmentions) (by simp [find?_eq_none_iff.mpr hunknown])

theorem checkDeclarations_eq_ok_iff : checkDeclarations patterns = .ok () ↔ Declared patterns := by
  constructor
  · intro h
    rw [checkDeclarations] at h
    split at h
    · cases h
    · next hrepeated =>
        split at h
        · cases h
        · next hunknown =>
            exact ⟨(nodup_labels_of_repeatedName? hrepeated).1,
              known_of_unknownReference? hunknown⟩
  · intro h
    rw [checkDeclarations, repeatedName?_eq_none h.nodup]
    cases hunknown : unknownReference? patterns with
    | none => rfl
    | some error =>
        obtain ⟨pattern, hmem, name, hmentions, hnew, -⟩ := unknown_of_unknownReference? hunknown
        exact absurd (h.known pattern hmem name hmentions) hnew

theorem checkDeclarations_of_duplicate (h : ¬ (labels patterns).Nodup) :
    ∃ name, 2 ≤ (labels patterns).count name ∧
      checkDeclarations patterns = .error (.duplicateName name) := by
  cases hrepeated : repeatedName? [] patterns with
  | none => exact absurd (nodup_labels_of_repeatedName? hrepeated).1 h
  | some name =>
      exact ⟨name, duplicate_of_repeatedName? hrepeated, by rw [checkDeclarations, hrepeated]⟩

theorem checkDeclarations_of_unknown (hnodup : (labels patterns).Nodup)
    (h : ∃ pattern ∈ patterns, ∃ name, pattern.Mentions name ∧ name ∉ labels patterns) :
    ∃ pattern ∈ patterns, ∃ name, pattern.Mentions name ∧ name ∉ labels patterns ∧
      checkDeclarations patterns = .error (.unknownReference pattern.label name) := by
  cases hunknown : unknownReference? patterns with
  | none =>
      obtain ⟨pattern, hmem, name, hmentions, hnew⟩ := h
      exact absurd (known_of_unknownReference? hunknown pattern hmem name hmentions) hnew
  | some error =>
      obtain ⟨pattern, hmem, name, hmentions, hnew, rfl⟩ := unknown_of_unknownReference? hunknown
      exact ⟨pattern, hmem, name, hmentions, hnew, by
        rw [checkDeclarations, repeatedName?_eq_none hnodup, hunknown]⟩

theorem compile_of_check [UnicodeClasses] {error : GrammarError}
    (h : checkDeclarations patterns = .error error) :
    Grammar.compile patterns = .error error := by
  simp [Grammar.compile, expand, h, bind, Except.bind]

theorem run_bind_eq_error {α β : Type} {action : Expand α} {next : α → Expand β}
    {store : Expanded} {error : GrammarError} :
    (action >>= next).run store = .error error ↔
      action.run store = .error error ∨
        ∃ value between, action.run store = .ok (value, between) ∧
          (next value).run between = .error error := by
  rw [StateT.run_bind]
  cases h : action.run store with
  | error other => simp [bind, Except.bind]
  | ok value =>
      obtain ⟨value, between⟩ := value
      simp [bind, Except.bind, and_assoc]

theorem error_of_expandPieces {expandTarget : String → Expand (List Char)}
    {pieces : List PatternPiece} {store : Expanded} {error : GrammarError}
    (h : (expandPieces expandTarget pieces).run store = .error error) :
    ∃ property name between, .reference property name ∈ pieces ∧
      (expandTarget name).run between = .error error := by
  induction pieces generalizing store with
  | nil => cases h
  | cons piece pieces ih =>
      have hrest {between : Expanded}
          (h : (expandPieces expandTarget pieces).run between = .error error) :
          ∃ property name between, .reference property name ∈ piece :: pieces ∧
            (expandTarget name).run between = .error error := by
        obtain ⟨property, name, between, hmem, hrun⟩ := ih h
        exact ⟨property, name, between, List.mem_cons_of_mem _ hmem, hrun⟩
      cases piece with
      | literal text =>
          rw [expandPieces, run_bind_eq_error] at h
          obtain h | ⟨_, _, -, h⟩ := h
          · exact hrest h
          · cases h
      | reference property name =>
          rw [expandPieces, run_bind_eq_error] at h
          obtain h | ⟨_, _, -, h⟩ := h
          · exact ⟨property, name, store, List.mem_cons_self, h⟩
          · obtain h | ⟨_, _, -, h⟩ := run_bind_eq_error.mp h
            · exact hrest h
            · cases h

def loopTo (path : List String) (name : String) : List String :=
  name :: (path.takeWhile (· != name)).reverse ++ [name]

theorem error_of_expandReference {path : List String} {name : String} {store : Expanded}
    {error : GrammarError} (h : (expandReference patterns path name).run store = .error error) :
    (name ∈ path ∧ error = .cycle (loopTo path name)) ∨
      name ∉ path ∧ (find? patterns name = none ∨
        ∃ pattern property target between, find? patterns name = some pattern ∧
          .reference property target ∈ pattern.pieces ∧
          (expandReference patterns (name :: path) target).run between = .error error) := by
  have hget : (get : Expand Expanded).run store = .ok (store, store) := rfl
  rw [expandReference, run_bind_eq_error] at h
  simp only [hget, reduceCtorEq, false_or, Except.ok.injEq, Prod.mk.injEq] at h
  obtain ⟨_, _, ⟨rfl, rfl⟩, h⟩ := h
  cases hlookup : store.lookup name with
  | some found =>
      rw [hlookup] at h
      cases h
  | none =>
      rw [hlookup] at h
      simp only at h
      split at h
      · next hpath =>
          cases h
          exact .inl ⟨hpath, rfl⟩
      · next hpath =>
          refine .inr ⟨hpath, ?_⟩
          split at h
          · next hfind => exact .inl hfind
          · next pattern hfind =>
              obtain h | ⟨_, _, -, h⟩ := run_bind_eq_error.mp h
              · obtain ⟨property, target, between, hmem, hrun⟩ := error_of_expandPieces h
                exact .inr ⟨pattern, property, target, between, hfind, hmem, hrun⟩
              · cases h

/-- Innermost first, each name of the path is referred to by the one after it. -/
def IsPath (patterns : List NamedPattern) (path : List String) : Prop :=
  path.IsChain fun inner outer => RefersTo patterns outer inner

theorem isCycle_loopTo {path : List String} {name : String} (hmem : name ∈ path)
    (hnodup : path.Nodup) (hpath : IsPath patterns (name :: path)) :
    IsCycle patterns (loopTo path name) := by
  obtain ⟨before, after, rfl, hbefore⟩ := List.eq_append_cons_of_mem hmem
  have htake : (before ++ name :: after).takeWhile (· != name) = before := by
    rw [List.takeWhile_append_of_pos]
    · simp
    · intro other hother
      exact bne_iff_ne.mpr fun heq => hbefore (heq ▸ hother)
  rw [loopTo, htake]
  refine ⟨name, before.reverse, rfl, ?_, ?_⟩
  · exact List.nodup_cons.mpr ⟨by simpa using hbefore,
      List.nodup_reverse.mpr (List.nodup_append.mp hnodup).1⟩
  · have hloop : IsPath patterns (name :: before ++ [name]) :=
      hpath.prefix ⟨after, by simp⟩
    have hreverse : name :: before.reverse ++ [name] = (name :: before ++ [name]).reverse := by
      simp
    rw [hreverse, List.isChain_reverse]
    exact hloop

theorem IsCycle.transGen {path : List String} {start : String} (h : IsCycle patterns path)
    (hstart : start ∈ path.head?) : Relation.TransGen (RefersTo patterns) start start := by
  obtain ⟨first, inner, rfl, -, hchain⟩ := h
  obtain rfl : first = start := Option.some.inj hstart
  exact transGen_of_isChain hchain

theorem refersTo_of_mem_pieces {pattern : NamedPattern} {name target : String}
    {property : Option String} (hfind : find? patterns name = some pattern)
    (hmem : .reference property target ∈ pattern.pieces) : RefersTo patterns name target := by
  obtain ⟨hpattern, hlabel⟩ := mem_of_find? hfind
  exact ⟨pattern, hpattern, hlabel, property, reference_mem_piecesOf.mp hmem⟩

/-- Below a declared pattern, expansion fails at a cycle only. -/
theorem cycle_of_expandReference (hdeclared : Declared patterns) {path : List String}
    {name : String} {store : Expanded} {error : GrammarError} (hknown : name ∈ labels patterns)
    (hpath : IsPath patterns (name :: path)) (hnodup : path.Nodup)
    (hrun : (expandReference patterns path name).run store = .error error) :
    ∃ cycle, error = .cycle cycle ∧ IsCycle patterns cycle ∧
      ∃ start ∈ cycle.head?, Relation.ReflTransGen (RefersTo patterns) name start := by
  induction hmeasure : unvisited (labels patterns) path using Nat.strong_induction_on
    generalizing path name store with
  | _ measure ih =>
      obtain ⟨hmem, rfl⟩ | ⟨hnew, hnone | hinner⟩ := error_of_expandReference hrun
      · exact ⟨_, rfl, isCycle_loopTo hmem hnodup hpath, name, rfl, .refl⟩
      · exact absurd hknown (find?_eq_none_iff.mp hnone)
      · obtain ⟨pattern, property, target, between, hfind, hpiece, hrun⟩ := hinner
        have hrefers := refersTo_of_mem_pieces hfind hpiece
        have htarget : target ∈ labels patterns :=
          hdeclared.known pattern (mem_of_find? hfind).1 target
            ⟨property, reference_mem_piecesOf.mp hpiece⟩
        have hless : unvisited (labels patterns) (name :: path) < measure :=
          hmeasure ▸ unvisited_cons_lt hknown hnew
        obtain ⟨cycle, rfl, hcycle, start, hstart, hreach⟩ :=
          ih _ hless htarget (List.isChain_cons_cons.mpr ⟨hrefers, hpath⟩)
            (List.nodup_cons.mpr ⟨hnew, hnodup⟩) hrun rfl
        exact ⟨cycle, rfl, hcycle, start, hstart, .head hrefers hreach⟩

theorem error_of_expandOwn_reference {owner : String} {seen : List String}
    {property : Option String} {name : String} {pieces : List PatternPiece} {store : Expanded}
    {error : GrammarError}
    (h : (expandOwn patterns owner seen (.reference property name :: pieces)).run store =
      .error error) :
    (expandReference patterns [owner] name).run store = .error error ∨
      (∃ key ∈ property, key ∈ seen ∧ error = .duplicateProperty owner key) ∨
      ∃ between, (expandOwn patterns owner (property.toList ++ seen) pieces).run between =
        .error error := by
  cases property with
  | none =>
      obtain h | ⟨_, between, -, h⟩ := run_bind_eq_error.mp h
      · exact .inl h
      · obtain h | ⟨_, _, -, h⟩ := run_bind_eq_error.mp h
        · exact .inr (.inr ⟨between, h⟩)
        · cases h
  | some key =>
      rw [expandOwn, run_bind_eq_error] at h
      obtain h | ⟨_, between, -, h⟩ := h
      · exact .inl h
      · split at h
        · next hseen =>
            cases h
            exact .inr (.inl ⟨key, rfl, hseen, rfl⟩)
        · obtain h | ⟨_, _, -, h⟩ := run_bind_eq_error.mp h
          · exact .inr (.inr ⟨between, h⟩)
          · cases h

theorem error_of_expandOwn {owner : String} {seen : List String} {pieces : List PatternPiece}
    {store : Expanded} {error : GrammarError}
    (h : (expandOwn patterns owner seen pieces).run store = .error error) :
    (∃ property name between, .reference property name ∈ pieces ∧
        (expandReference patterns [owner] name).run between = .error error) ∨
      ∃ key, error = .duplicateProperty owner key ∧ 2 ≤ (seen ++ captures pieces).count key := by
  induction pieces generalizing seen store with
  | nil => cases h
  | cons piece pieces ih =>
      have inPieces : (∃ property name between, .reference property name ∈ pieces ∧
            (expandReference patterns [owner] name).run between = .error error) →
          ∃ property name between, .reference property name ∈ piece :: pieces ∧
            (expandReference patterns [owner] name).run between = .error error :=
        fun ⟨property, name, between, hmem, hrun⟩ =>
          ⟨property, name, between, List.mem_cons_of_mem _ hmem, hrun⟩
      cases piece with
      | literal text =>
          obtain h | ⟨_, _, -, h⟩ := run_bind_eq_error.mp h
          · exact (ih h).imp_left inPieces
          · cases h
      | reference property name =>
          rw [captures_reference]
          obtain h | ⟨key, hkey, hseen, rfl⟩ | ⟨between, h⟩ := error_of_expandOwn_reference h
          · exact .inl ⟨property, name, store, List.mem_cons_self, h⟩
          · obtain rfl := Option.mem_def.mp hkey
            have hpos := List.count_pos_iff.mpr hseen
            refine .inr ⟨key, rfl, ?_⟩
            simp only [Option.toList_some, List.count_append, List.count_singleton_self]
            omega
          · refine (ih h).imp inPieces fun ⟨key, herror, htwice⟩ => ⟨key, herror, ?_⟩
            simp only [List.count_append] at htwice ⊢
            omega

theorem error_of_expandAll {list : List NamedPattern} {store : Expanded} {error : GrammarError}
    (h : (expandAll patterns list).run store = .error error) :
    ∃ pattern ∈ list, pattern.isPrivate = false ∧ ∃ between,
      (expandOwn patterns pattern.label [] pattern.pieces).run between = .error error := by
  induction list generalizing store with
  | nil => cases h
  | cons pattern list ih =>
      have hrest {between : Expanded} (h : (expandAll patterns list).run between = .error error) :
          ∃ other ∈ pattern :: list, other.isPrivate = false ∧ ∃ between,
            (expandOwn patterns other.label [] other.pieces).run between = .error error := by
        obtain ⟨other, hmem, hother⟩ := ih h
        exact ⟨other, List.mem_cons_of_mem _ hmem, hother⟩
      rw [expandAll] at h
      split at h
      · exact hrest h
      · next hpublic =>
          obtain h | ⟨_, _, -, h⟩ := run_bind_eq_error.mp h
          · exact ⟨pattern, List.mem_cons_self, by simpa using hpublic, store, h⟩
          · obtain h | ⟨_, _, -, h⟩ := run_bind_eq_error.mp h
            · exact hrest h
            · cases h

theorem run'_eq_error {α : Type} {action : Expand α} {store : Expanded} {error : GrammarError} :
    action.run' store = .error error ↔ action.run store = .error error := by
  rw [StateT.run'_eq]
  cases h : action.run store with
  | error other => simp [Functor.map, Except.map]
  | ok result => simp [Functor.map, Except.map]

/-- Why the public patterns cannot all be expanded. -/
theorem cause_of_error (hdeclared : Declared patterns) {error : GrammarError}
    (h : (expandAll patterns patterns).run' [] = .error error) :
    ∃ pattern ∈ patterns, pattern.isPrivate = false ∧
      ((∃ cycle, error = .cycle cycle ∧ IsCycle patterns cycle ∧
          ReachesCycle patterns pattern.label) ∨
        ∃ key, error = .duplicateProperty pattern.label key ∧ pattern.CapturesTwice key) := by
  obtain ⟨pattern, hmem, hpublic, between, hrun⟩ := error_of_expandAll (run'_eq_error.mp h)
  refine ⟨pattern, hmem, hpublic, ?_⟩
  obtain ⟨property, name, store, hpiece, hrun⟩ | ⟨key, rfl, htwice⟩ := error_of_expandOwn hrun
  · have hmentions : pattern.Mentions name := ⟨property, reference_mem_piecesOf.mp hpiece⟩
    have hrefers : RefersTo patterns pattern.label name := ⟨pattern, hmem, rfl, hmentions⟩
    obtain ⟨cycle, rfl, hcycle, start, hstart, hreach⟩ :=
      cycle_of_expandReference hdeclared (hdeclared.known pattern hmem name hmentions)
        (List.isChain_pair.mpr hrefers) (List.nodup_singleton _) hrun
    exact .inl ⟨cycle, rfl, hcycle, start, .head hrefers hreach, hcycle.transGen hstart⟩
  · exact .inr ⟨key, rfl, hasTwice_iff_count.mpr htwice⟩

theorem length_le_namedGroup (name : String) (text : List Char) :
    text.length ≤ (namedGroup name text).length := by
  have hgroup : namedGroup name text = "(?P<".toList ++ name.toList ++ '>' :: text ++ [')'] := rfl
  rw [hgroup]
  simp only [List.length_append, List.length_cons]
  omega

theorem length_le_written (owner property : Option String) (text : List Char) :
    text.length ≤ (written owner property text).length := by
  cases owner with
  | none => exact Nat.le_refl _
  | some owner =>
      cases property with
      | none => exact Nat.le_refl _
      | some property => exact length_le_namedGroup _ text

theorem Substituted.exists_anonymous {owner property : Option String} {text body : List Char}
    {name : String} (h : Substituted patterns owner text body)
    (hplaceholder : HasPlaceholder text property name) :
    ∃ inner, Anonymous patterns name inner ∧ inner.length ≤ body.length := by
  induction h with
  | nil => exact absurd hplaceholder not_hasPlaceholder_nil
  | copy hnone _ ih =>
      obtain ⟨inner, hinner, hle⟩ := ih ((hasPlaceholder_copy hnone).mp hplaceholder)
      exact ⟨inner, hinner, by rw [List.length_cons]; omega⟩
  | @placeholder owner content rest inner body key target pattern hinside hrefers hfind hinner
      _ _ ih =>
      rw [List.length_append]
      obtain ⟨-, rfl⟩ | hrest := (hasPlaceholder_placeholder hinside hrefers).mp hplaceholder
      · have hle := length_le_written owner key (groupOf inner)
        exact ⟨_, ⟨pattern, inner, hfind, hinner, rfl⟩, by omega⟩
      · obtain ⟨inner, hinner, hle⟩ := ih hrest
        exact ⟨inner, hinner, by omega⟩

theorem Anonymous.shorter (hdeclared : Declared patterns) {name other : String}
    {text : List Char} (htext : Anonymous patterns name text)
    (h : RefersTo patterns name other) :
    ∃ inner, Anonymous patterns other inner ∧ inner.length < text.length := by
  obtain ⟨target, body, hfind, hbody, rfl⟩ := htext
  obtain ⟨pattern, hmem, rfl, property, hplaceholder⟩ := h
  have hself := find?_label (checkDeclarations_eq_ok_iff.mpr hdeclared) hmem
  obtain rfl := Option.some.inj (hself.symm.trans hfind)
  obtain ⟨inner, hinner, hle⟩ := hbody.exists_anonymous hplaceholder
  refine ⟨inner, hinner, ?_⟩
  simp [groupOf]
  omega

theorem Anonymous.shorter_of_transGen (hdeclared : Declared patterns) {name other : String}
    {text : List Char} (htext : Anonymous patterns name text)
    (h : Relation.TransGen (RefersTo patterns) name other) :
    ∃ inner, Anonymous patterns other inner ∧ inner.length < text.length := by
  induction h with
  | single hrefers => exact htext.shorter hdeclared hrefers
  | tail _ hrefers ih =>
      obtain ⟨middle, hmiddle, hless⟩ := ih
      obtain ⟨inner, hinner, hless'⟩ := hmiddle.shorter hdeclared hrefers
      exact ⟨inner, hinner, hless'.trans hless⟩

theorem Anonymous.not_reachesCycle (hdeclared : Declared patterns) {start : String}
    {text : List Char} (htext : Anonymous patterns start text) :
    ¬ ReachesCycle patterns start := by
  rintro ⟨name, hreach, hcycle⟩
  obtain ⟨outer, houter⟩ : ∃ outer, Anonymous patterns name outer := by
    obtain rfl | hreach := Relation.reflTransGen_iff_eq_or_transGen.mp hreach
    · exact ⟨text, htext⟩
    · obtain ⟨outer, houter, -⟩ := htext.shorter_of_transGen hdeclared hreach
      exact ⟨outer, houter⟩
  obtain ⟨inner, hinner, hless⟩ := houter.shorter_of_transGen hdeclared hcycle
  rw [hinner.unique houter] at hless
  exact lt_irrefl _ hless

theorem captures_of_expandOwn {owner : String} {seen : List String} {pieces : List PatternPiece}
    {store after : Expanded} {body : Body}
    (h : (expandOwn patterns owner seen pieces).run store = .ok (body, after)) :
    (captures pieces).Nodup ∧ ∀ key ∈ captures pieces, key ∉ seen := by
  induction pieces generalizing seen store body with
  | nil => simp [captures]
  | cons piece pieces ih =>
      cases piece with
      | literal text =>
          rw [expandOwn, run_bind_eq_ok] at h
          obtain ⟨rest, between, hrest, h⟩ := h
          obtain ⟨-, rfl⟩ := run_pure_eq_ok.mp h
          exact ih hrest
      | reference property name =>
          obtain ⟨text, between, rest, -, hseen, hrest, -⟩ := run_expandOwn_reference.mp h
          obtain ⟨hnodup, hunseen⟩ := ih hrest
          rw [captures_reference]
          cases property with
          | none => exact ⟨hnodup, hunseen⟩
          | some key =>
              simp only [Option.toList_some, List.cons_append, List.nil_append,
                List.mem_cons, not_or] at hunseen ⊢
              refine ⟨List.nodup_cons.mpr ⟨fun hmem => (hunseen key hmem).1 rfl, hnodup⟩, ?_⟩
              rintro other (rfl | hmem)
              · exact hseen other rfl
              · exact (hunseen other hmem).2

theorem Expands.acyclic (hdeclared : Declared patterns) {pattern : NamedPattern}
    (hmem : pattern ∈ patterns) {entry : String × Body} (h : Expands patterns pattern entry) :
    ¬ ReachesCycle patterns pattern.label ∧ ∀ key, ¬ pattern.CapturesTwice key := by
  obtain ⟨plain, hplain⟩ := h.substituted.exists_plain
  have hself := find?_label (checkDeclarations_eq_ok_iff.mpr hdeclared) hmem
  have htext : Anonymous patterns pattern.label (groupOf plain) :=
    ⟨pattern, plain, hself, hplain, rfl⟩
  refine ⟨htext.not_reachesCycle hdeclared, fun key htwice => ?_⟩
  obtain ⟨-, store, after, -, hrun⟩ := h
  have hcount := hasTwice_iff_count.mp htwice
  have honce := List.nodup_iff_count_le_one.mp (captures_of_expandOwn hrun).1 key
  exact absurd (hcount.trans honce) (by omega)

theorem exists_expands {declared : List NamedPattern} {bodies : List (String × Body)}
    (h : List.Forall₂ (Expands patterns) declared bodies) {pattern : NamedPattern}
    (hmem : pattern ∈ declared) : ∃ entry, Expands patterns pattern entry := by
  induction h with
  | nil => cases hmem
  | cons hentry _ ih =>
      cases hmem with
      | head => exact ⟨_, hentry⟩
      | tail _ hmem => exact ih hmem

theorem expandAll_ok_iff (hdeclared : Declared patterns) :
    (∃ bodies, (expandAll patterns patterns).run' [] = .ok bodies) ↔
      ∀ pattern ∈ patterns, pattern.isPrivate = false →
        ¬ ReachesCycle patterns pattern.label ∧ ∀ key, ¬ pattern.CapturesTwice key := by
  constructor
  · rintro ⟨bodies, h⟩ pattern hmem hpublic
    obtain ⟨after, hrun⟩ := run'_eq_ok.mp h
    have hbodies := (sound_expandAll patterns [] bodies after .nil hrun).1
    have hpattern : pattern ∈ patterns.filter (!·.isPrivate) :=
      List.mem_filter.mpr ⟨hmem, by simpa using hpublic⟩
    obtain ⟨entry, hentry⟩ := exists_expands hbodies hpattern
    exact hentry.acyclic hdeclared hmem
  · intro h
    cases hrun : (expandAll patterns patterns).run' [] with
    | ok bodies => exact ⟨bodies, rfl⟩
    | error error =>
        obtain ⟨pattern, hmem, hpublic, ⟨cycle, -, -, hreaches⟩ | ⟨key, -, htwice⟩⟩ :=
          cause_of_error hdeclared hrun
        · exact absurd hreaches (h pattern hmem hpublic).1
        · exact absurd htwice ((h pattern hmem hpublic).2 key)

/-- Expanding a name while those of a path are being expanded asks for another name, which its
pattern mentions, unless the name is on the path. -/
inductive Opens (patterns : List NamedPattern) : List String × String → List String × String → Prop
  | inside {path : List String} {name target : String} {pattern : NamedPattern}
      (hnew : name ∉ path) (hfind : find? patterns name = some pattern)
      (hmentions : pattern.Mentions target) :
      Opens patterns (path, name) (name :: path, target)

theorem wellFounded_opens (patterns : List NamedPattern) :
    WellFounded fun inner outer => Opens patterns outer inner := by
  refine Subrelation.wf ?_ (measure fun call => unvisited (labels patterns) call.1).wf
  rintro inner outer ⟨hnew, hfind, -⟩
  exact unvisited_cons_lt (mem_labels_of_find? hfind) hnew

section

variable [UnicodeClasses]

theorem compile_of_expandAll (hdeclared : Declared patterns) {error : GrammarError}
    (h : (expandAll patterns patterns).run' [] = .error error) :
    Grammar.compile patterns = .error error := by
  simp only [Grammar.compile, expand, checkDeclarations_eq_ok_iff.mpr hdeclared, h, bind,
    Except.bind]

theorem compile_ne_cycle (hdeclared : Declared patterns) {bodies : List (String × Body)}
    (h : (expandAll patterns patterns).run' [] = .ok bodies) (path : List String) :
    Grammar.compile patterns ≠ .error (.cycle path) := by
  intro hcompile
  simp only [Grammar.compile, expand, checkDeclarations_eq_ok_iff.mpr hdeclared, h, bind,
    Except.bind] at hcompile
  by_cases hempty : bodies.isEmpty
  · rw [if_pos hempty] at hcompile
    cases hcompile
  · rw [if_neg hempty] at hcompile
    simp only [pure, Except.pure] at hcompile
    split at hcompile
    · cases hcompile
    · split at hcompile <;> cases hcompile

theorem isCycle_of_compile {path : List String}
    (h : Grammar.compile patterns = .error (.cycle path)) : IsCycle patterns path := by
  by_cases hnodup : (labels patterns).Nodup
  · by_cases hknown : ∃ pattern ∈ patterns, ∃ name, pattern.Mentions name ∧ name ∉ labels patterns
    · obtain ⟨pattern, -, name, -, -, hcheck⟩ := checkDeclarations_of_unknown hnodup hknown
      rw [compile_of_check hcheck] at h
      cases h
    · have hdeclared : Declared patterns := ⟨hnodup, by simpa using hknown⟩
      cases hrun : (expandAll patterns patterns).run' [] with
      | error error =>
          rw [compile_of_expandAll hdeclared hrun] at h
          obtain ⟨pattern, -, -, ⟨cycle, rfl, hcycle, -⟩ | ⟨key, rfl, -⟩⟩ :=
            cause_of_error hdeclared hrun
          · cases h
            exact hcycle
          · cases h
      | ok bodies => exact absurd h (compile_ne_cycle hdeclared hrun path)
  · obtain ⟨name, -, hcheck⟩ := checkDeclarations_of_duplicate hnodup
    rw [compile_of_check hcheck] at h
    cases h

/-- Names that are declared twice are found first, then placeholders for what is not declared.
Otherwise expansion ends for all public patterns just if none of them leads into a cycle or
captures a property twice, and fails for these reasons only. What is reported as a cycle is
one. -/
theorem expansion_cycles (patterns : List NamedPattern) :
    (¬ (labels patterns).Nodup → ∃ name, 2 ≤ (labels patterns).count name ∧
      checkDeclarations patterns = .error (.duplicateName name) ∧
      Grammar.compile patterns = .error (.duplicateName name)) ∧
    ((labels patterns).Nodup →
      (∃ pattern ∈ patterns, ∃ name, pattern.Mentions name ∧ name ∉ labels patterns) →
      ∃ pattern ∈ patterns, ∃ name, pattern.Mentions name ∧ name ∉ labels patterns ∧
        checkDeclarations patterns = .error (.unknownReference pattern.label name) ∧
        Grammar.compile patterns = .error (.unknownReference pattern.label name)) ∧
    (Declared patterns →
      ((∃ bodies, (expandAll patterns patterns).run' [] = .ok bodies) ↔
        ∀ pattern ∈ patterns, pattern.isPrivate = false →
          ¬ ReachesCycle patterns pattern.label ∧ ∀ key, ¬ pattern.CapturesTwice key) ∧
      ∀ error, (expandAll patterns patterns).run' [] = .error error →
        Grammar.compile patterns = .error error ∧
        ∃ pattern ∈ patterns, pattern.isPrivate = false ∧
          ((∃ cycle, error = .cycle cycle ∧ IsCycle patterns cycle ∧
              ReachesCycle patterns pattern.label) ∨
            ∃ key, error = .duplicateProperty pattern.label key ∧ pattern.CapturesTwice key)) ∧
    (∀ path, Grammar.compile patterns = .error (.cycle path) → IsCycle patterns path) ∧
    WellFounded fun inner outer => Opens patterns outer inner := by
  refine ⟨fun h => ?_, fun hnodup h => ?_, fun hdeclared => ⟨expandAll_ok_iff hdeclared, ?_⟩,
    fun path => isCycle_of_compile, wellFounded_opens patterns⟩
  · obtain ⟨name, htwice, hcheck⟩ := checkDeclarations_of_duplicate h
    exact ⟨name, htwice, hcheck, compile_of_check hcheck⟩
  · obtain ⟨pattern, hmem, name, hmentions, hnew, hcheck⟩ := checkDeclarations_of_unknown hnodup h
    exact ⟨pattern, hmem, name, hmentions, hnew, hcheck, compile_of_check hcheck⟩
  · exact fun error h => ⟨compile_of_expandAll hdeclared h, cause_of_error hdeclared h⟩

end

def crossed : List NamedPattern :=
  [⟨"!a", "x<<b>>"⟩, ⟨"!b", "y<<a>>"⟩, ⟨"top", "<<a>>"⟩]

def shared : List NamedPattern :=
  [⟨"!digit", "[0-9]"⟩, ⟨"!pair", "<<digit>>,<<digit>>"⟩, ⟨"row", "<<first:pair>>;<<last:digit>>"⟩]

def dangling : List NamedPattern :=
  [⟨"!unused", "<<missing>>"⟩, ⟨"top", "x"⟩]

theorem expansion_cycles_crossed_shared :
    (Grammar.compile crossed = .error (.cycle ["a", "b", "a"]) ∧
      IsCycle crossed ["a", "b", "a"]) ∧
    (Declared shared ∧ ¬ ReachesCycle shared "row") ∧
    (¬ (labels (crossed ++ crossed)).Nodup ∧
      ∃ name, Grammar.compile (crossed ++ crossed) = .error (.duplicateName name)) ∧
    (⟨"!unused", "<<missing>>"⟩ : NamedPattern).Mentions "missing" ∧
      ∃ pattern ∈ dangling, ∃ name,
        Grammar.compile dangling = .error (.unknownReference pattern.label name) := by
  have hcrossed : Grammar.compile crossed = .error (.cycle ["a", "b", "a"]) := by decide +kernel
  have hshared : Declared shared := checkDeclarations_eq_ok_iff.mp (by decide +kernel)
  have hexpanded : ((expandAll shared shared).run' []).toOption.isSome := by decide +kernel
  have htwice : ¬ (labels (crossed ++ crossed)).Nodup := by decide
  have hmentions : (⟨"!unused", "<<missing>>"⟩ : NamedPattern).Mentions "missing" :=
    mem_references.mp (by decide +kernel)
  refine ⟨⟨hcrossed, (expansion_cycles crossed).2.2.2.1 _ hcrossed⟩, ⟨hshared, ?_⟩,
    ⟨htwice, ?_⟩, hmentions, ?_⟩
  · cases hrun : (expandAll shared shared).run' [] with
    | error error =>
        rw [hrun] at hexpanded
        cases hexpanded
    | ok bodies =>
        exact (((expansion_cycles shared).2.2.1 hshared).1.mp ⟨bodies, hrun⟩
          ⟨"row", "<<first:pair>>;<<last:digit>>"⟩ (by decide) (by decide)).1
  · obtain ⟨name, -, -, hcompile⟩ := (expansion_cycles (crossed ++ crossed)).1 htwice
    exact ⟨name, hcompile⟩
  · obtain ⟨pattern, hmem, name, -, -, -, hcompile⟩ := (expansion_cycles dangling).2.1 (by decide)
      ⟨_, List.mem_cons_self, "missing", hmentions, by decide⟩
    exact ⟨pattern, hmem, name, hcompile⟩

end NamedPattern

end DocMarkup
