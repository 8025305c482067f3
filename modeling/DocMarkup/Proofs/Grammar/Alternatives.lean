import DocMarkup.Proofs.Grammar.Substitution
import DocMarkup.Proofs.Pattern.Composition

/-!
Grammars as alternatives.

If the expansion of every public pattern can be read on its own, the pattern of a grammar is
the alternation of what these read as, each in the group of its name.
-/

namespace DocMarkup

namespace Grammar

section

variable [UnicodeClasses]

/-- A public pattern whose expansion can be read on its own. -/
structure Alternative where
  name : String
  body : NamedPattern.Body
  expression : Expression
  read : Expression.read? body.text = some expression

namespace Alternative

def entry (alternative : Alternative) : String × NamedPattern.Body :=
  (alternative.name, alternative.body)

def rule (alternative : Alternative) : Rule :=
  ruleOf alternative.name alternative.body

def pattern (alternative : Alternative) : Pattern :=
  alternative.expression.pattern

def named (alternative : Alternative) : String × Pattern :=
  (alternative.name, alternative.pattern)

def branch (alternative : Alternative) : Expression :=
  .group (.named alternative.name) alternative.expression

def names (alternative : Alternative) : List String :=
  alternative.name :: alternative.expression.names

end Alternative

theorem readAll_namedGroup {name : String} {text : List Char} {lexemes : List Lexeme}
    (hname : Lexeme.IsGroupName name) (htext : Lexeme.readAll [] text = some lexemes)
    (hclosed : ¬ Lexeme.EndsInComment [] text) (more : List Char) :
    Lexeme.readAll [] (NamedPattern.namedGroup name text ++ more) =
      (Lexeme.readAll (lexemes.foldl Lexeme.Modes.after [false]).tail more).map
        fun others => .openGroup (.named name) :: (lexemes ++ .closeGroup :: others) := by
  have hmodes : Lexeme.Modes.Agree [false] [] := (Lexeme.Modes.off_nil.cons rfl).agree
  rw [← Lexeme.readAll_congr_modes hmodes] at htext
  rw [← Lexeme.endsInComment_congr hmodes] at hclosed
  have hdelimited : Lexeme.Delimited (')' :: more) := Lexeme.delimited_cons (by decide) more
  have hsource : NamedPattern.namedGroup name text ++ more =
      "(?P<".toList ++ name.toList ++ '>' :: (text ++ ')' :: more) := by
    show "(?P<".toList ++ name.toList ++ '>' :: text ++ [')'] ++ more = _
    rw [List.append_assoc, List.append_assoc]
    rfl
  rw [hsource, Lexeme.readAll_openNamed [] hname]
  show (Lexeme.readAll [false] _).map _ = _
  rw [Lexeme.readAll_append htext hclosed hdelimited, Lexeme.readAll_close]
  simp only [Option.map_map]
  rfl

/-- The text is read as the expression, and does not end inside a comment. -/
structure ReadsAs (text : List Char) (expression : Expression) : Prop where
  closed : ¬ Lexeme.EndsInComment [] text
  lexemes : ∃ lexemes, Lexeme.readAll [] text = some lexemes ∧
    Expression.ofLexemes? lexemes = some expression

theorem ReadsAs.readAll_namedGroup {text : List Char} {expression : Expression}
    (h : ReadsAs text expression) {name : String} (hname : Lexeme.IsGroupName name) :
    ∃ lexemes, Expression.ofLexemes? lexemes = some expression ∧
      ∀ more, Lexeme.readAll [] (NamedPattern.namedGroup name text ++ more) =
        (Lexeme.readAll [] more).map
          fun others => .openGroup (.named name) :: (lexemes ++ .closeGroup :: others) := by
  obtain ⟨hclosed, lexemes, hlexemes, hexpression⟩ := h
  refine ⟨lexemes, hexpression, fun more => ?_⟩
  have hgroup := Grammar.readAll_namedGroup hname hlexemes hclosed more
  rwa [Expression.tail_modes hexpression] at hgroup

def branchOf (entry : String × Expression) : Expression :=
  .group (.named entry.1) entry.2

theorem read_sourceOf {bodies : List (String × NamedPattern.Body)}
    {expressions : List (String × Expression)}
    (h : List.Forall₂ (fun body entry => body.1 = entry.1 ∧ ReadsAs body.2.text entry.2)
      bodies expressions)
    (hne : bodies ≠ []) (hnames : ∀ body ∈ bodies, Lexeme.IsGroupName body.1) :
    ∃ lexemes, Lexeme.readAll [] (sourceOf bodies) = some lexemes ∧
      ∀ branches, (Expression.Reader.run? ⟨⟨branches, []⟩, []⟩ lexemes).bind
        Expression.Reader.finish? =
          some (Expression.ofBranches (branches.reverse ++ expressions.map branchOf)) := by
  induction h with
  | nil => exact absurd rfl hne
  | @cons body entry rest others hbody hrest ih =>
      obtain ⟨name, body⟩ := body
      obtain ⟨_, expression⟩ := entry
      obtain ⟨rfl, hreads⟩ := hbody
      obtain ⟨hname, hnames⟩ := List.forall_mem_cons.mp hnames
      obtain ⟨lexemes, hexpression, hgroup⟩ := hreads.readAll_namedGroup hname
      cases hrest with
      | nil =>
          have hends : Lexeme.readAll [] (NamedPattern.namedGroup name body.text) =
              some (.openGroup (.named name) :: (lexemes ++ [.closeGroup])) := by
            rw [← List.append_nil (NamedPattern.namedGroup name body.text), hgroup,
              Lexeme.readAll_of_next_eq_none rfl, Option.map_some]
          refine ⟨_, hends, fun branches => ?_⟩
          rw [Expression.run?_group hexpression]
          exact congrArg (some ∘ Expression.ofBranches) List.reverse_cons
      | @cons next _ rest _ hnext hrest =>
          obtain ⟨later, hlater, hrun⟩ := ih (List.cons_ne_nil _ _) hnames
          have hsource : Lexeme.readAll [] (sourceOf ((name, body) :: next :: rest)) =
              some (.openGroup (.named name) :: (lexemes ++ .closeGroup :: .bar :: later)) := by
            rw [sourceOf, hgroup, Lexeme.readAll_bar, hlater, Option.map_some, Option.map_some]
            exact List.cons_ne_nil next rest
          refine ⟨_, hsource, fun branches => ?_⟩
          rw [Expression.run?_group hexpression, Expression.Reader.run?_cons]
          have hbranch := hrun (.group (.named name) expression :: branches)
          rw [List.reverse_cons, List.append_assoc] at hbranch
          exact hbranch

end

theorem lower_branches (expressions : List (String × Expression)) :
    (Expression.ofBranches (expressions.map branchOf)).lower {} =
      ({}, Pattern.alternation (expressions.map fun entry => (entry.1, entry.2.pattern))) := by
  induction expressions with
  | nil => rfl
  | cons entry rest ih =>
      cases rest with
      | nil => rfl
      | cons next rest =>
          have hbranch : (branchOf entry).lower {} = ({}, .group entry.1 entry.2.pattern) := rfl
          simp only [List.map_cons, Expression.ofBranches, Expression.lower, hbranch] at ih ⊢
          rw [ih]
          rfl

theorem groupsOf_ruleOf (name : String) (body : NamedPattern.Body) :
    groupsOf (ruleOf name body) =
      name :: body.properties.map (NamedPattern.groupName name) := by
  rw [groupsOf, ruleOf, List.map_map]
  rfl

section

variable [UnicodeClasses] {patterns : List NamedPattern} {grammar : Grammar}
  {bodies : List (String × NamedPattern.Body)}

theorem isGroupName_of_compile (hcompile : compile patterns = .ok grammar)
    (hexpand : NamedPattern.expand patterns = .ok bodies) {body : String × NamedPattern.Body}
    (hbody : body ∈ bodies) {group : String} (hgroup : group ∈ groupsOf (ruleOf body.1 body.2)) :
    Lexeme.IsGroupName group := by
  obtain ⟨expression, hread, rfl, hgroups⟩ := NamedPattern.compile_eq_ok hexpand hcompile
  exact Expression.isGroupName_of_read? hread
    (Expression.mem_names_of_mem_groups (hgroups _ (List.mem_map_of_mem hbody) _ hgroup))

theorem read_of_compile (hcompile : compile patterns = .ok grammar)
    (hexpand : NamedPattern.expand patterns = .ok bodies)
    {expressions : List (String × Expression)}
    (h : List.Forall₂ (fun body entry => body.1 = entry.1 ∧ ReadsAs body.2.text entry.2)
      bodies expressions) :
    (Expression.ofBranches (expressions.map branchOf)).names.Nodup ∧
      grammar.pattern =
        Pattern.alternation (expressions.map fun entry => (entry.1, entry.2.pattern)) ∧
      grammar.rules = bodies.map fun body => ruleOf body.1 body.2 := by
  have hnames : ∀ body ∈ bodies, Lexeme.IsGroupName body.1 := fun body hbody =>
    isGroupName_of_compile hcompile hexpand hbody List.mem_cons_self
  obtain ⟨composed, hread, rfl, -⟩ := NamedPattern.compile_eq_ok hexpand hcompile
  obtain ⟨lexemes, hlexemes, hcomposed, hnodup⟩ := Expression.lexemes_of_read? hread
  obtain ⟨others, hothers, hrun⟩ := read_sourceOf h (NamedPattern.expand_ne_nil hexpand) hnames
  cases hlexemes.symm.trans hothers
  obtain rfl : composed = Expression.ofBranches (expressions.map branchOf) :=
    Option.some.inj (hcomposed.symm.trans (hrun []))
  exact ⟨hnodup, by rw [Expression.pattern, lower_branches], rfl⟩

theorem Alternative.readsAs (alternative : Alternative)
    (hclosed : ¬ Lexeme.EndsInComment [] alternative.body.text) :
    ReadsAs alternative.body.text alternative.expression := by
  obtain ⟨lexemes, hlexemes, hexpression, -⟩ := Expression.lexemes_of_read? alternative.read
  exact ⟨hclosed, lexemes, hlexemes, hexpression⟩

theorem names_branches (alternatives : List Alternative) :
    (Expression.ofBranches (alternatives.map Alternative.branch)).names =
      alternatives.flatMap Alternative.names := by
  rw [Expression.names_ofBranches, List.flatMap_map]
  rfl

/-- The grammar tries the alternatives in order, and all their groups have different names. -/
structure Composes (grammar : Grammar) (alternatives : List Alternative) : Prop where
  nonempty : alternatives ≠ []
  pattern : grammar.pattern = Pattern.alternation (alternatives.map Alternative.named)
  rules : grammar.rules = alternatives.map Alternative.rule
  names : (alternatives.flatMap Alternative.names).Nodup

theorem composes_of_compile {alternatives : List Alternative}
    (hcompile : compile patterns = .ok grammar)
    (hexpand : NamedPattern.expand patterns = .ok (alternatives.map Alternative.entry))
    (hclosed : ∀ alternative ∈ alternatives,
      ¬ Lexeme.EndsInComment [] alternative.body.text) :
    grammar.Composes alternatives := by
  have hreads : List.Forall₂ (fun body entry => body.1 = entry.1 ∧ ReadsAs body.2.text entry.2)
      (alternatives.map Alternative.entry)
      (alternatives.map fun alternative => (alternative.name, alternative.expression)) := by
    rw [List.forall₂_map_left_iff, List.forall₂_map_right_iff, List.forall₂_same]
    exact fun alternative hmem => ⟨rfl, alternative.readsAs (hclosed alternative hmem)⟩
  obtain ⟨hnodup, hpattern, hrules⟩ := read_of_compile hcompile hexpand hreads
  rw [List.map_map] at hnodup hpattern hrules
  refine ⟨by simpa using NamedPattern.expand_ne_nil hexpand, hpattern, hrules, ?_⟩
  rw [← names_branches]
  exact hnodup

end

end Grammar

end DocMarkup
