import DocMarkup.Proofs.Grammar.Alternatives
import DocMarkup.Proofs.Grammar.Pieces
import DocMarkup.Proofs.Pattern.Templates

/-!
Inlining in syntax trees.

Patterns are put together as text. What comes out is what the syntax trees give: the tree of a
pattern with the trees of its targets in the place of its placeholders. The group that every
target is put in keeps it together, and means nothing itself.
-/

namespace DocMarkup

open Expression

namespace NamedPattern

structure Placeholder where
  property : Option String
  target : String
  deriving DecidableEq, Repr

section

variable [UnicodeClasses]

/-- The symbols of a pattern, each literal text being read by itself. -/
def symbolsOf? : List PatternPiece → Option (List (Symbol Placeholder))
  | [] => some []
  | .literal text :: pieces => do
      let lexemes ← Lexeme.readAll [] text
      return lexemes.map .lexeme ++ (← symbolsOf? pieces)
  | .reference property target :: pieces => do
      return .hole ⟨property, target⟩ :: (← symbolsOf? pieces)

/-- The pattern can be read if each placeholder counts as an atom, and it sets no flags except
for groups. -/
def WellFormed (pattern : NamedPattern) : Prop :=
  ∃ symbols ∈ symbolsOf? pattern.pieces, (∀ symbol ∈ symbols, symbol.setsFlags = false) ∧
    (ofLexemes? (symbols.map Symbol.asLexeme)).isSome = true

instance : DecidablePred WellFormed := fun pattern =>
  inferInstanceAs (Decidable (∃ symbols ∈ symbolsOf? pattern.pieces,
    (∀ symbol ∈ symbols, symbol.setsFlags = false) ∧
      (ofLexemes? (symbols.map Symbol.asLexeme)).isSome = true))

end

/-- An expression in the place of a placeholder: properties of the owner are captured. -/
def planted (owner property : Option String) (inner : Expression) : Expression :=
  match owner, property with
  | some owner, some property => .group (.named (groupName owner property)) inner
  | _, _ => inner

/-- The tree is that of the pattern, with the trees of its targets in the place of its
placeholders. -/
inductive IsTree [UnicodeClasses] (patterns : List NamedPattern) :
    (owner : Option String) → NamedPattern → Expression → Prop
  | intro {owner : Option String} {pattern : NamedPattern} {template : Template Placeholder}
      {targets : String → NamedPattern} {trees : String → Expression}
      (hpattern : symbolsOf? pattern.pieces = some template.symbols)
      (htargets : AllHoles (fun place =>
        find? patterns place.target = some (targets place.target)) template.symbols)
      (htrees : ∀ place : Placeholder, .hole place ∈ template.symbols →
        IsTree patterns none (targets place.target) (trees place.target)) :
      IsTree patterns owner pattern
        (template.fill fun place => planted owner place.property (trees place.target))

section

variable [UnicodeClasses] {pieces : List PatternPiece} {symbols : List (Symbol Placeholder)}

theorem symbolsOf?_literal {text : List Char} :
    symbolsOf? (.literal text :: pieces) = some symbols ↔
      ∃ lexemes rest, Lexeme.readAll [] text = some lexemes ∧ symbolsOf? pieces = some rest ∧
        lexemes.map .lexeme ++ rest = symbols := by
  simp only [symbolsOf?, Option.bind_eq_bind, Option.bind_eq_some_iff, Option.pure_def,
    Option.some.injEq]
  constructor
  · rintro ⟨lexemes, hlexemes, rest, hrest, heq⟩
    exact ⟨lexemes, rest, hlexemes, hrest, heq⟩
  · rintro ⟨lexemes, rest, hlexemes, hrest, heq⟩
    exact ⟨lexemes, hlexemes, rest, hrest, heq⟩

theorem symbolsOf?_reference {property : Option String} {target : String} :
    symbolsOf? (.reference property target :: pieces) = some symbols ↔
      ∃ rest, symbolsOf? pieces = some rest ∧ .hole ⟨property, target⟩ :: rest = symbols := by
  simp only [symbolsOf?, Option.bind_eq_bind, Option.bind_eq_some_iff, Option.pure_def,
    Option.some.injEq]

theorem mem_of_symbolsOf? (h : symbolsOf? pieces = some symbols) :
    AllHoles (fun place => .reference place.property place.target ∈ pieces) symbols := by
  induction pieces generalizing symbols with
  | nil =>
      cases h
      exact fun _ hmem => absurd hmem List.not_mem_nil
  | cons piece pieces ih =>
      intro place hmem
      cases piece with
      | literal text =>
          obtain ⟨lexemes, rest, -, hrest, rfl⟩ := symbolsOf?_literal.mp h
          rcases List.mem_append.mp hmem with hmem | hmem
          · obtain ⟨_, -, heq⟩ := List.mem_map.mp hmem
            cases heq
          · exact List.mem_cons_of_mem _ (ih hrest place hmem)
      | reference property target =>
          obtain ⟨rest, hrest, rfl⟩ := symbolsOf?_reference.mp h
          rcases List.mem_cons.mp hmem with heq | hmem
          · cases heq
            exact List.mem_cons_self
          · exact List.mem_cons_of_mem _ (ih hrest place hmem)

theorem isAtom_of_symbolsOf? (h : symbolsOf? pieces = some symbols) {item : Expression}
    (hmem : .lexeme (.atom item) ∈ symbols) : item.isAtom = true := by
  induction pieces generalizing symbols with
  | nil =>
      cases h
      cases hmem
  | cons piece pieces ih =>
      cases piece with
      | literal text =>
          obtain ⟨lexemes, rest, hlexemes, hrest, rfl⟩ := symbolsOf?_literal.mp h
          rcases List.mem_append.mp hmem with hmem | hmem
          · obtain ⟨written, hwritten, heq⟩ := List.mem_map.mp hmem
            cases heq
            exact Lexeme.isWritten_of_mem_readAll hlexemes hwritten
          · exact ih hrest hmem
      | reference property target =>
          obtain ⟨rest, hrest, rfl⟩ := symbolsOf?_reference.mp h
          rcases List.mem_cons.mp hmem with heq | hmem
          · cases heq
          · exact ih hrest hmem

theorem WellFormed.exists_template {pattern : NamedPattern} (h : pattern.WellFormed) :
    ∃ template : Template Placeholder, symbolsOf? pattern.pieces = some template.symbols ∧
      ∀ symbol ∈ template.symbols, symbol.setsFlags = false := by
  obtain ⟨symbols, hsymbols, hflags, hread⟩ := h
  have hplain : ∀ symbol ∈ symbols, symbol.IsPlain := by
    intro symbol hmem
    match symbol with
    | .lexeme (.atom item) => exact isAtom_of_symbolsOf? hsymbols hmem
    | .lexeme (.flags changes) => cases hflags _ hmem
    | .lexeme (.repetition ..) | .lexeme .bar | .lexeme (.openGroup _) | .lexeme .closeGroup
    | .hole _ => trivial
  obtain ⟨template, htemplate⟩ := DocMarkup.exists_template hplain hread
  exact ⟨template, hsymbols.trans (congrArg some htemplate.symm), htemplate.symm ▸ hflags⟩

end

def plainGroup (lexemes : List Lexeme) : List Lexeme :=
  .openGroup (.flagged []) :: (lexemes ++ [.closeGroup])

def spelling (owner property : Option String) (lexemes : List Lexeme) : List Lexeme :=
  match owner, property with
  | some owner, some property =>
      .openGroup (.named (groupName owner property)) :: (lexemes ++ [.closeGroup])
  | _, _ => lexemes

variable {patterns : List NamedPattern} {owner property : Option String}

theorem addsItem_spelling {lexemes : List Lexeme} {item : Expression}
    (h : AddsItem lexemes item) :
    AddsItem (spelling owner property lexemes) (planted owner property item) := by
  cases owner with
  | none => cases property <;> exact h
  | some owner =>
      cases property with
      | none => exact h
      | some property => exact .group _ h.reads

theorem alike_planted {first second : Expression} (h : Alike first second) :
    Alike (planted owner property (.group (.flagged []) first))
      (planted owner property second) := by
  cases owner with
  | none => cases property <;> exact h.plainGroup
  | some owner =>
      cases property with
      | none => exact h.plainGroup
      | some property => exact h.plainGroup.group _

theorem Inlined.delimited {pieces : List PatternPiece} {body : List Char}
    (h : Inlined patterns owner pieces body)
    (halone : ∀ other rest, pieces ≠ .literal other :: rest) : Lexeme.Delimited body := by
  cases pieces with
  | nil =>
      cases h
      exact Lexeme.delimited_nil
  | cons piece pieces =>
      cases piece with
      | literal text => exact absurd rfl (halone text pieces)
      | reference property name =>
          obtain ⟨group, rfl⟩ := h.opens
          exact Lexeme.delimited_cons (.inl rfl) group

theorem plain_group {lexemes : List Lexeme} {kind : GroupKind} (hkind : (Lexeme.openGroup kind).setsVerbose = false)
    (hplain : ∀ lexeme ∈ lexemes, lexeme.setsVerbose = false) :
    ∀ lexeme ∈ .openGroup kind :: (lexemes ++ [.closeGroup]), lexeme.setsVerbose = false := by
  intro lexeme hmem
  rcases List.mem_cons.mp hmem with rfl | hmem
  · exact hkind
  · rcases List.mem_append.mp hmem with hmem | hmem
    · exact hplain lexeme hmem
    · rw [List.mem_singleton.mp hmem]
      rfl

section

variable [UnicodeClasses] {text more : List Char} {lexemes others : List Lexeme}

theorem readsPlainly_groupOf (htext : Lexeme.ReadsPlainly text lexemes)
    (hmore : Lexeme.ReadsPlainly more others) :
    Lexeme.ReadsPlainly (groupOf text ++ more) (plainGroup lexemes ++ others) := by
  have hmodes : Lexeme.Modes.Agree [false] [] := (Lexeme.Modes.off_nil.cons rfl).agree
  have hclose : Lexeme.ReadsPlainly (')' :: more) (.closeGroup :: others) := by
    refine ⟨?_, List.forall_mem_cons.mpr ⟨rfl, hmore.plain⟩⟩
    rw [Lexeme.readAll_close, List.tail_nil, hmore.reads, Option.map_some]
  have hinside := htext.append hclose (Lexeme.delimited_cons (by decide) more)
  have hsource : groupOf text ++ more = "(?:".toList ++ (text ++ ')' :: more) := by
    rw [groupOf, List.append_assoc, List.append_assoc, List.singleton_append]
  refine ⟨?_, List.forall_mem_append.mpr ⟨plain_group rfl htext.plain, hmore.plain⟩⟩
  rw [hsource, Lexeme.readAll_openPlain]
  show (Lexeme.readAll [false] _).map _ = _
  rw [Lexeme.readAll_congr_modes hmodes, hinside.reads]
  simp [plainGroup]

theorem readsPlainly_namedGroup {name : String} (hname : Lexeme.IsGroupName name)
    (htext : Lexeme.ReadsPlainly text lexemes) (hmore : Lexeme.ReadsPlainly more others) :
    Lexeme.ReadsPlainly (namedGroup name text ++ more)
      (.openGroup (.named name) :: (lexemes ++ [.closeGroup]) ++ others) := by
  have hoff : Lexeme.Modes.Off (lexemes.foldl Lexeme.Modes.after [false]).tail :=
    ((Lexeme.Modes.off_nil.cons rfl).foldl htext.plain).tail
  refine ⟨?_, List.forall_mem_append.mpr ⟨plain_group rfl htext.plain, hmore.plain⟩⟩
  rw [Grammar.readAll_namedGroup hname htext.reads htext.not_endsInComment,
    Lexeme.readAll_congr_modes hoff.agree, hmore.reads]
  simp

theorem readsPlainly_written {name : String} {pieces : List PatternPiece}
    (hnames : ∀ group ∈ propertyGroups owner (.reference property name :: pieces),
      Lexeme.IsGroupName group)
    (htext : Lexeme.ReadsPlainly text lexemes) (hmore : Lexeme.ReadsPlainly more others) :
    Lexeme.ReadsPlainly (written owner property (groupOf text) ++ more)
      (spelling owner property (plainGroup lexemes) ++ others) := by
  cases owner with
  | none =>
      rw [written_none]
      cases property <;> exact readsPlainly_groupOf htext hmore
  | some owner =>
      cases property with
      | none => exact readsPlainly_groupOf htext hmore
      | some property =>
          have hgroup := readsPlainly_groupOf htext Lexeme.readsPlainly_nil
          rw [List.append_nil, List.append_nil] at hgroup
          exact readsPlainly_namedGroup (hnames _ List.mem_cons_self) hgroup hmore

/-- A placeholder takes no lexeme of the text around it, and none of its own leaves it. -/
theorem Inlined.readsPlainly {pieces : List PatternPiece} {body : List Char}
    (h : Inlined patterns owner pieces body)
    (hnames : ∀ group ∈ propertyGroups owner pieces, Lexeme.IsGroupName group)
    {symbols : List (Symbol Placeholder)} (hsymbols : symbolsOf? pieces = some symbols)
    (hflags : ∀ symbol ∈ symbols, symbol.setsFlags = false) (lexemes : String → List Lexeme)
    (hlexemes : ∀ property name, .reference property name ∈ pieces → ∀ target inner,
      find? patterns name = some target → Inlined patterns none target.pieces inner →
      Lexeme.ReadsPlainly inner (lexemes name)) :
    Lexeme.ReadsPlainly body (symbols.flatMap (Symbol.spelled fun place =>
      spelling owner place.property (plainGroup (lexemes place.target)))) := by
  induction h generalizing symbols with
  | nil =>
      cases hsymbols
      exact Lexeme.readsPlainly_nil
  | @literal owner text body pieces halone hrest ih =>
      obtain ⟨first, rest, hfirst, hpieces, rfl⟩ := symbolsOf?_literal.mp hsymbols
      obtain ⟨hhere, hlater⟩ := List.forall_mem_append.mp hflags
      have hbody := ih (fun group hmem => hnames group (propertyGroups_cons_subset _ _ hmem))
        hpieces hlater
        (fun property name hmem => hlexemes property name (List.mem_cons_of_mem _ hmem))
      have htext : Lexeme.ReadsPlainly text first :=
        ⟨hfirst, fun lexeme hmem => Symbol.setsVerbose_eq_false (hhere _ (List.mem_map_of_mem hmem))⟩
      have hwhole := htext.append hbody (hrest.delimited halone)
      rw [List.flatMap_append, List.flatMap_map]
      simpa [Symbol.spelled] using hwhole
  | @reference owner property name target inner body pieces hfind hinner hrest _ ih =>
      obtain ⟨rest, hpieces, rfl⟩ := symbolsOf?_reference.mp hsymbols
      have hbody := ih (fun group hmem => hnames group (propertyGroups_cons_subset _ _ hmem))
        hpieces (List.forall_mem_cons.mp hflags).2
        (fun property name hmem => hlexemes property name (List.mem_cons_of_mem _ hmem))
      have htext := hlexemes property name List.mem_cons_self target inner hfind hinner
      exact readsPlainly_written hnames htext hbody

/-- The text is read as what the trees of the pattern mean, and there is such a tree. -/
def ReadsAsTree (patterns : List NamedPattern) (owner : Option String) (pattern : NamedPattern)
    (body : List Char) : Prop :=
  ∃ expression, (∃ lexemes, Lexeme.ReadsPlainly body lexemes ∧
      ofLexemes? lexemes = some expression) ∧
    (∃ tree, IsTree patterns owner pattern tree) ∧
    ∀ tree, IsTree patterns owner pattern tree → Alike expression tree

/-- The target of a placeholder is put in its place as a text that its trees give the meaning
of. -/
def TargetReads (patterns : List NamedPattern) (name : String) : Prop :=
  ∃ target inner, find? patterns name = some target ∧
    Inlined patterns none target.pieces inner ∧ ReadsAsTree patterns none target inner

theorem Inlined.readsAsTree {pattern : NamedPattern} (hpattern : pattern.WellFormed)
    {body : List Char} (h : Inlined patterns owner pattern.pieces body)
    (hnames : ∀ group ∈ propertyGroups owner pattern.pieces, Lexeme.IsGroupName group)
    (htargets : ∀ name, (∃ property, .reference property name ∈ pattern.pieces) →
      TargetReads patterns name) :
    ReadsAsTree patterns owner pattern body := by
  obtain ⟨template, htemplate, hflags⟩ := hpattern.exists_template
  have : Nonempty NamedPattern := ⟨pattern⟩
  have : Nonempty Expression := ⟨.empty⟩
  choose! targets inners hfind hinlined expressions hreads htree htrees using htargets
  choose! lexemes hlexemes hexpressions using hreads
  choose! trees htree using htree
  have hmentioned : AllHoles (fun place =>
      ∃ property, .reference property place.target ∈ pattern.pieces) template.symbols :=
    fun place hmem => ⟨_, mem_of_symbolsOf? htemplate place hmem⟩
  have hbody := h.readsPlainly hnames htemplate hflags lexemes <| by
    intro property name hmem target inner htarget hinner
    obtain rfl := Option.some.inj (htarget.symm.trans (hfind name ⟨property, hmem⟩))
    rw [hinner.unique (hinlined name ⟨property, hmem⟩)]
    exact hlexemes name ⟨property, hmem⟩
  have hfits : Fits (fun place => spelling owner place.property (plainGroup (lexemes place.target)))
      (fun place => planted owner place.property
        (.group (.flagged []) (expressions place.target))) template.symbols :=
    fun place hmem => addsItem_spelling (.group _ (hexpressions _ (hmentioned place hmem)))
  refine ⟨_, ⟨_, hbody, template.reads hfits⟩, ⟨_, .intro htemplate
    (fun place hmem => hfind _ (hmentioned place hmem))
    (fun place hmem => htree _ (hmentioned place hmem))⟩, ?_⟩
  rintro _ (@⟨_, _, other, targets', trees', hother, htargets', htrees'⟩)
  have hsymbols : other.symbols = template.symbols :=
    Option.some.inj (hother.symm.trans htemplate)
  -- The tree may be another one, but it is written, and so read, in the same way.
  have hsame := template.reads hfits
  rw [← hsymbols] at hsame hfits hmentioned
  rw [← Option.some.inj ((other.reads hfits).symm.trans hsame)]
  refine other.fill_alike fun place hmem => alike_planted (htrees _ (hmentioned place hmem) _ ?_)
  have htarget := htrees' place hmem
  rwa [← Option.some.inj ((htargets' place hmem).symm.trans (hfind _ (hmentioned place hmem)))]

theorem Inlined.targets (hpatterns : ∀ pattern ∈ patterns, pattern.WellFormed)
    {pieces : List PatternPiece} {body : List Char} (h : Inlined patterns owner pieces body) :
    ∀ name, (∃ property, .reference property name ∈ pieces) → TargetReads patterns name := by
  induction h with
  | nil => rintro name ⟨property, hmem⟩; cases hmem
  | literal _ _ ih =>
      rintro name ⟨property, hmem⟩
      exact ih name ⟨property, (List.mem_cons.mp hmem).resolve_left (fun h => nomatch h)⟩
  | @reference owner key other target inner body pieces hfind hinner hrest ihInner ihRest =>
      rintro name ⟨property, hmem⟩
      rcases List.mem_cons.mp hmem with heq | hmem
      · cases heq
        have htarget := hpatterns target (mem_of_find? hfind).1
        exact ⟨target, inner, hfind, hinner,
          hinner.readsAsTree htarget (List.forall_mem_nil _) ihInner⟩
      · exact ihRest name ⟨property, hmem⟩

end

end NamedPattern

namespace Grammar

open NamedPattern

theorem exists_forall₂ {α β γ : Type} {first : β → γ → Prop} {second : α → γ → Prop}
    {left : List α} {right : List β}
    (h : List.Forall₂ (fun a b => ∃ c, first b c ∧ second a c) left right) :
    ∃ found, List.Forall₂ first right found ∧ List.Forall₂ second left found := by
  induction h with
  | nil => exact ⟨[], .nil, .nil⟩
  | cons hhead _ ih =>
      obtain ⟨c, hfirst, hsecond⟩ := hhead
      obtain ⟨found, hfirsts, hseconds⟩ := ih
      exact ⟨c :: found, .cons hfirst hfirsts, .cons hsecond hseconds⟩

section

variable [UnicodeClasses] {patterns : List NamedPattern} {grammar : Grammar}

/-- The alternative is the pattern of the syntax trees of the pattern, of which there are some. -/
structure Inlines (patterns : List NamedPattern) (pattern : NamedPattern)
    (alternative : String × Pattern) : Prop where
  name : alternative.1 = pattern.label
  tree : ∃ tree, IsTree patterns (some pattern.label) pattern tree
  pattern : ∀ tree, IsTree patterns (some pattern.label) pattern tree →
    alternative.2 = tree.pattern

theorem exists_inlines (hcompile : compile patterns = .ok grammar)
    (hpatterns : ∀ pattern ∈ patterns, pattern.WellFormed) {bodies : List (String × Body)}
    (hexpand : expand patterns = .ok bodies) {pattern : NamedPattern} {body : String × Body}
    (hpattern : pattern ∈ patterns) (hbody : body ∈ bodies)
    (h : Expansion patterns pattern body) :
    ∃ entry : String × Expression, (body.1 = entry.1 ∧ ReadsAs body.2.text entry.2) ∧
      Inlines patterns pattern (entry.1, entry.2.pattern) := by
  have hnames : ∀ group ∈ propertyGroups (some pattern.label) pattern.pieces,
      Lexeme.IsGroupName group := by
    intro group hgroup
    rw [h.propertyGroups_eq] at hgroup
    refine isGroupName_of_compile hcompile hexpand hbody ?_
    rw [groupsOf_ruleOf]
    exact List.mem_cons_of_mem _ hgroup
  obtain ⟨expression, ⟨lexemes, hreads, hexpression⟩, htree, htrees⟩ :=
    h.text.readsAsTree (hpatterns pattern hpattern) hnames (h.text.targets hpatterns)
  have hbody : ReadsAs body.2.text expression :=
    ⟨hreads.not_endsInComment, lexemes, hreads.reads, hexpression⟩
  refine ⟨(body.1, expression), ⟨rfl, hbody⟩, h.name, htree, fun tree hother => ?_⟩
  exact congrArg Prod.snd ((htrees tree hother).lower {})

/-- Patterns that are put together as text match what their syntax trees match when these are put
together: every alternative of a grammar is the pattern of a tree in which the trees of the
targets stand as wholes. -/
theorem compile_inlines (hcompile : compile patterns = .ok grammar)
    (hpatterns : ∀ pattern ∈ patterns, pattern.WellFormed) :
    ∃ alternatives, grammar.pattern = Pattern.alternation alternatives ∧
      List.Forall₂ (Inlines patterns) (patterns.filter (!·.isPrivate)) alternatives := by
  obtain ⟨bodies, hexpand⟩ := expand_of_compile hcompile
  have hbodies := expansion_of_expand hexpand
  have hentries : List.Forall₂ (fun pattern body => ∃ entry : String × Expression,
      (body.1 = entry.1 ∧ ReadsAs body.2.text entry.2) ∧
        Inlines patterns pattern (entry.1, entry.2.pattern))
      (patterns.filter (!·.isPrivate)) bodies :=
    List.forall₂_iff_get.mpr ⟨hbodies.length_eq, fun index hleft hright =>
      exists_inlines hcompile hpatterns hexpand (List.mem_of_mem_filter (List.get_mem _ _))
        (List.get_mem _ _) (hbodies.get hleft hright)⟩
  obtain ⟨expressions, hreads, hinlines⟩ := exists_forall₂ hentries
  obtain ⟨-, hpattern, -⟩ := read_of_compile hcompile hexpand hreads
  exact ⟨_, hpattern, List.forall₂_map_right_iff.mpr hinlines⟩

end

def letters : NamedPattern :=
  ⟨"!ab", "a|b"⟩

def wrapped : NamedPattern :=
  ⟨"wrapped", "x<<ab>>*y|z"⟩

def lettersTemplate : Template Placeholder :=
  .alt (.cons (.atom (.literal 'a') rfl) .nil) (.last (.cons (.atom (.literal 'b') rfl) .nil))

def wrappedTemplate : Template Placeholder :=
  .alt
    (.cons (.atom (.literal 'x') rfl) <| .cons (.repeated 0 none true (.hole ⟨none, "ab"⟩)) <|
      .cons (.atom (.literal 'y') rfl) .nil)
    (.last (.cons (.atom (.literal 'z') rfl) .nil))

def wrappedTree : Expression :=
  .alt
    (.seq (.literal 'x') <| .seq (.repeated 0 none true (.alt (.literal 'a') (.literal 'b'))) <|
      .literal 'y')
    (.literal 'z')

theorem isTree_wrapped : IsTree [letters, wrapped] (some "wrapped") wrapped wrappedTree := by
  have hletters : symbolsOf? letters.pieces = some lettersTemplate.symbols := by decide +kernel
  have hwrapped : symbolsOf? wrapped.pieces = some wrappedTemplate.symbols := by decide +kernel
  have hholes : ∀ place, .hole place ∈ wrappedTemplate.symbols → place = ⟨none, "ab"⟩ := by
    simp [wrappedTemplate, Template.symbols, TemplateBranch.symbols, TemplateItem.symbols]
  have hnone : AllHoles (fun _ => False) lettersTemplate.symbols := by
    simp [AllHoles, lettersTemplate, Template.symbols, TemplateBranch.symbols,
      TemplateItem.symbols]
  refine @IsTree.intro _ _ _ _ wrappedTemplate (fun _ => letters)
    (fun _ => .alt (.literal 'a') (.literal 'b')) hwrapped (fun place hmem => ?_) fun _ _ => ?_
  · rw [hholes place hmem]
    decide +kernel
  · exact @IsTree.intro _ _ _ _ lettersTemplate (fun _ => letters) (fun _ => .empty) hletters
      (fun place hmem => (hnone place hmem).elim) fun place hmem => (hnone place hmem).elim

theorem compile_inlines_wrapped :
    ∃ grammar, compile [letters, wrapped] = .ok grammar ∧
      (∀ pattern ∈ [letters, wrapped], pattern.WellFormed) ∧
      grammar.pattern = Pattern.alternation [("wrapped", wrappedTree.pattern)] := by
  have hrun : (compile [letters, wrapped]).toOption.isSome = true := by decide +kernel
  have hpatterns : ∀ pattern ∈ [letters, wrapped], pattern.WellFormed := by decide +kernel
  have hpublic : [letters, wrapped].filter (!·.isPrivate) = [wrapped] := by decide
  have hlabel : wrapped.label = "wrapped" := by decide
  cases hcompile : compile [letters, wrapped] with
  | error error => simp [hcompile, Except.toOption] at hrun
  | ok grammar =>
      obtain ⟨alternatives, hpattern, halternatives⟩ := compile_inlines hcompile hpatterns
      rw [hpublic, List.forall₂_cons_left_iff] at halternatives
      obtain ⟨⟨name, alternative⟩, rest, hinlines, hrest, rfl⟩ := halternatives
      cases hrest
      obtain ⟨hname, -, htree⟩ := hinlines
      rw [hlabel] at hname htree
      cases hname
      cases htree _ isTree_wrapped
      exact ⟨grammar, rfl, hpatterns, hpattern⟩

end Grammar

end DocMarkup
