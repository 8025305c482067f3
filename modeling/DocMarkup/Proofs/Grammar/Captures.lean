import DocMarkup.Proofs.Grammar.Alternatives
import DocMarkup.Proofs.Grammar.Matches
import DocMarkup.Proofs.Grammar.Pieces
import DocMarkup.Proofs.Pattern.Unread
import Mathlib.Data.List.Chain

/-!
What tokens capture.

The properties of an alternative are those that its pattern writes itself, each captured by a
group of its own. The groups of different alternatives are told apart when they are read, and
this sees all of them as long as none opens inside a class or a comment that is left open before
it.
-/

namespace DocMarkup

namespace NamedPattern

open Lexeme (opening OpensGroups behind)

variable {patterns : List NamedPattern} {owner : Option String}

/-- A placeholder captures a property behind the text of the pieces before it. -/
inductive CapturesBehind (patterns : List NamedPattern) (owner : Option String)
    (pieces : List PatternPiece) (before : List Char) : Prop
  | intro {index : Nat} {property target : String}
      (hpiece : pieces[index]? = some (.reference (some property) target))
      (htext : Inlined patterns owner (pieces.take index) before)

theorem alone_take {pieces : List PatternPiece}
    (h : ∀ other rest, pieces ≠ .literal other :: rest) (index : Nat) :
    ∀ other rest, pieces.take index ≠ .literal other :: rest := by
  intro other rest heq
  cases index with
  | zero => cases heq
  | succ index =>
      cases pieces with
      | nil => cases heq
      | cons piece pieces => exact h other pieces (by rw [(List.cons.inj heq).1])

theorem CapturesBehind.literal {pieces : List PatternPiece} {text before : List Char}
    (h : CapturesBehind patterns owner pieces before)
    (halone : ∀ other rest, pieces ≠ .literal other :: rest) :
    CapturesBehind patterns owner (.literal text :: pieces) (text ++ before) := by
  obtain @⟨index, property, target, hpiece, htext⟩ := h
  have hnext : (PatternPiece.literal text :: pieces)[index + 1]? =
      some (.reference (some property) target) := hpiece
  exact .intro hnext (.literal (alone_take halone index) htext)

theorem CapturesBehind.reference {property : Option String} {name : String}
    {target : NamedPattern} {inner before : List Char} {pieces : List PatternPiece}
    (hfind : find? patterns name = some target)
    (hinner : Inlined patterns none target.pieces inner)
    (h : CapturesBehind patterns owner pieces before) :
    CapturesBehind patterns owner (.reference property name :: pieces)
      (written owner property (groupOf inner) ++ before) := by
  obtain @⟨index, other, source, hpiece, htext⟩ := h
  have hnext : (PatternPiece.reference property name :: pieces)[index + 1]? =
      some (.reference (some other) source) := hpiece
  exact .intro hnext (.reference hfind hinner htext)

theorem namedGroup_eq (name : String) (text : List Char) :
    namedGroup name text = opening name ++ (text ++ [')']) := by
  simp [namedGroup, opening]

theorem Inlined.opensGroups {owner : String} {pieces : List PatternPiece} {body : List Char}
    (h : Inlined patterns (some owner) pieces body) :
    ∃ places, OpensGroups body places ∧
      places.map Prod.snd = propertyGroups (some owner) pieces ∧
      ∀ place ∈ places, CapturesBehind patterns (some owner) pieces place.1 := by
  generalize hsome : some owner = someOwner at h
  induction h with
  | nil => exact ⟨[], .none [], by rw [← hsome]; rfl, List.forall_mem_nil _⟩
  | @literal _ text body pieces halone hrest ih =>
      obtain ⟨places, hplaces, hnames, hcaptures⟩ := ih hsome
      refine ⟨behind text places, (OpensGroups.none text).append hplaces, ?_, ?_⟩
      · rw [behind, List.map_map, ← hsome]
        rw [← hsome] at hnames
        exact hnames
      · exact List.forall_mem_map.mpr fun place hmem => (hcaptures place hmem).literal halone
  | @reference _ property name target inner body pieces hfind hinner hrest _ ih =>
      obtain ⟨places, hplaces, hnames, hcaptures⟩ := ih hsome
      subst hsome
      have hlater : ∀ place ∈ behind (written (some owner) property (groupOf inner)) places,
          CapturesBehind patterns (some owner) (.reference property name :: pieces) place.1 :=
        List.forall_mem_map.mpr fun place hmem => (hcaptures place hmem).reference hfind hinner
      cases property with
      | none =>
          refine ⟨_, (OpensGroups.none _).append hplaces, ?_, hlater⟩
          rw [List.nil_append, behind, List.map_map]
          exact hnames
      | some property =>
          have hgroup : OpensGroups (written (some owner) (some property) (groupOf inner))
              [([], groupName owner property)] := by
            rw [written, namedGroup_eq]
            exact (OpensGroups.opening _).append (.none _)
          refine ⟨_, hgroup.append hplaces, ?_, List.forall_mem_cons.mpr ⟨?_, hlater⟩⟩
          · rw [List.map_append, behind, List.map_map]
            exact congrArg (groupName owner property :: ·) hnames
          · have hfirst : (PatternPiece.reference (some property) name :: pieces)[0]? =
                some (.reference (some property) name) := rfl
            exact .intro hfirst .nil

theorem Inlined.split {pieces : List PatternPiece} {body : List Char}
    (h : Inlined patterns owner pieces body) (index : Nat) :
    ∃ text rest, body = text ++ rest ∧ Inlined patterns owner (pieces.take index) text ∧
      Inlined patterns owner (pieces.drop index) rest := by
  induction h generalizing index with
  | nil => exact ⟨[], [], rfl, by rw [List.take_nil]; exact .nil, by rw [List.drop_nil]; exact .nil⟩
  | literal halone hrest ih =>
      cases index with
      | zero => exact ⟨[], _, rfl, .nil, .literal halone hrest⟩
      | succ index =>
          obtain ⟨text, rest, rfl, htext, hleft⟩ := ih index
          exact ⟨_, rest, (List.append_assoc ..).symm, .literal (alone_take halone index) htext,
            hleft⟩
  | reference hfind hinner hrest _ ih =>
      cases index with
      | zero => exact ⟨[], _, rfl, .nil, .reference hfind hinner hrest⟩
      | succ index =>
          obtain ⟨text, rest, rfl, htext, hleft⟩ := ih index
          exact ⟨_, rest, (List.append_assoc ..).symm, .reference hfind hinner htext, hleft⟩

theorem CapturesBehind.written {owner : String} {pieces : List PatternPiece}
    {body before : List Char} (h : CapturesBehind patterns (some owner) pieces before)
    (hbody : Inlined patterns (some owner) pieces body) :
    ∃ property, before ++ opening (groupName owner property) <+: body := by
  obtain @⟨index, property, target, hpiece, htext⟩ := h
  obtain ⟨text, rest, rfl, hbefore, hrest⟩ := hbody.split index
  cases hbefore.unique htext
  obtain ⟨hlt, hpiece⟩ := List.getElem?_eq_some_iff.mp hpiece
  rw [List.drop_eq_getElem_cons hlt, hpiece] at hrest
  cases hrest with
  | reference hfind hinner hlater =>
      refine ⟨property, ?_⟩
      rw [NamedPattern.written, namedGroup_eq, List.append_assoc, List.prefix_append_right_inj]
      exact List.prefix_append _ _

end NamedPattern

namespace Grammar

open NamedPattern
open Lexeme (opening OpensGroups behind)

/-- What stands before the group of the next alternative. -/
def leadOf (bodies : List (String × Body)) : List Char :=
  bodies.flatMap fun entry => namedGroup entry.1 entry.2.text ++ ['|']

/-- What the group of an alternative stands behind in the composed pattern. -/
inductive AlternativeBehind (patterns : List NamedPattern) (before : List Char) : Prop
  | intro {bodies : List (String × Body)} {index : Nat}
      (hexpand : expand patterns = .ok bodies) (hindex : index < bodies.length)
      (hbefore : before = leadOf (bodies.take index))

/-- What the group of a property stands behind in the composed pattern. -/
inductive PropertyBehind (patterns : List NamedPattern) (before : List Char) : Prop
  | intro {bodies : List (String × Body)} {index : Nat} {pattern : NamedPattern}
      {inside : List Char} (hexpand : expand patterns = .ok bodies)
      (hpattern : (patterns.filter (!·.isPrivate))[index]? = some pattern)
      (hinside : CapturesBehind patterns (some pattern.label) pattern.pieces inside)
      (hbefore : before = leadOf (bodies.take index) ++ opening pattern.label ++ inside)

theorem exists_of_getElem? {α β : Type} {related : α → β → Prop} {left : List α} {right : List β}
    (h : List.Forall₂ related left right) {index : Nat} {second : β}
    (hindex : right[index]? = some second) :
    ∃ first, left[index]? = some first ∧ related first second := by
  obtain ⟨hlt, rfl⟩ := List.getElem?_eq_some_iff.mp hindex
  have hlt' : index < left.length := h.length_eq ▸ hlt
  exact ⟨left[index], List.getElem?_eq_getElem hlt', h.get hlt' hlt⟩

section

variable {patterns : List NamedPattern} {bodies : List (String × Body)}
  {test : List Char → Prop}

theorem forall_alternativeBehind (hexpand : expand patterns = .ok bodies)
    (h : ∀ index < bodies.length, test (leadOf (bodies.take index))) :
    ∀ before, AlternativeBehind patterns before → test before := by
  intro before hbefore
  obtain ⟨hagain, hindex, rfl⟩ := hbefore
  cases hexpand.symm.trans hagain
  exact h _ hindex

theorem forall_propertyBehind (hexpand : expand patterns = .ok bodies)
    (h : ∀ index, ∀ hindex : index < bodies.length,
      ∀ count ≤ bodies[index].2.text.length,
        "(?P<".toList <+: bodies[index].2.text.drop count →
          test (leadOf (bodies.take index) ++ opening bodies[index].1 ++
            bodies[index].2.text.take count)) :
    ∀ before, PropertyBehind patterns before → test before := by
  intro before hbefore
  obtain @⟨bodies, index, pattern, inside, hagain, hpattern, hinside, rfl⟩ := hbefore
  cases hexpand.symm.trans hagain
  obtain ⟨entry, hentry, hexpansion⟩ :=
    exists_of_getElem? (expansion_of_expand hexpand).flip hpattern
  obtain ⟨hindex, rfl⟩ := List.getElem?_eq_some_iff.mp hentry
  obtain ⟨property, rest, hrest⟩ := hinside.written hexpansion.text
  have htext : bodies[index].2.text =
      inside ++ ("(?P<".toList ++ ((groupName pattern.label property).toList ++ '>' :: rest)) := by
    rw [← hrest]
    simp [opening]
  have htest := h index hindex inside.length
  rw [htext, List.take_left, List.drop_left, hexpansion.name] at htest
  exact htest (by simp) (List.prefix_append _ _)

end

theorem opensGroups_namedGroup {name : String} {text : List Char}
    {places : List (List Char × String)} (h : OpensGroups text places) :
    OpensGroups (namedGroup name text) (([], name) :: behind (opening name) places) := by
  have hplaces := (OpensGroups.opening name).append (h.append (.none [')']))
  rwa [← namedGroup_eq, show behind text [] = [] from rfl, List.append_nil] at hplaces

theorem opensGroups_rule {name : String} {body : Body} {places : List (List Char × String)}
    {inside : List Char → Prop} (h : OpensGroups body.text places)
    (hnames : places.map Prod.snd = body.properties.map (groupName name))
    (hinside : ∀ place ∈ places, inside place.1) :
    ∃ places, OpensGroups (namedGroup name body.text) places ∧
      places.map Prod.snd = groupsOf (ruleOf name body) ∧
      ∀ place ∈ places,
        place.1 = [] ∨ ∃ before, inside before ∧ place.1 = opening name ++ before := by
  refine ⟨([], name) :: behind (opening name) places, opensGroups_namedGroup h, ?_, ?_⟩
  · rw [groupsOf_ruleOf, List.map_cons, behind, List.map_map]
    exact congrArg (name :: ·) hnames
  · exact List.forall_mem_cons.mpr ⟨.inl rfl, List.forall_mem_map.mpr fun place hmem =>
      .inr ⟨place.1, hinside place hmem, rfl⟩⟩

theorem opensGroups_sourceOf {bodies : List (String × Body)} {inside : Nat → List Char → Prop}
    (h : ∀ index entry, bodies[index]? = some entry → ∃ places,
      OpensGroups entry.2.text places ∧
      places.map Prod.snd = entry.2.properties.map (groupName entry.1) ∧
      ∀ place ∈ places, inside index place.1) :
    ∃ places, OpensGroups (sourceOf bodies) places ∧
      places.map Prod.snd = bodies.flatMap (fun entry => groupsOf (ruleOf entry.1 entry.2)) ∧
      ∀ place ∈ places, ∃ index entry, bodies[index]? = some entry ∧
        (place.1 = leadOf (bodies.take index) ∨
          ∃ before, inside index before ∧
            place.1 = leadOf (bodies.take index) ++ opening entry.1 ++ before) := by
  induction bodies generalizing inside with
  | nil => exact ⟨[], .none [], rfl, List.forall_mem_nil _⟩
  | cons entry bodies ih =>
      obtain ⟨name, body⟩ := entry
      obtain ⟨places, hplaces, hnames, hinside⟩ := h 0 (name, body) rfl
      obtain ⟨places, hgroup, hgroups, hhere⟩ := opensGroups_rule hplaces hnames hinside
      cases bodies with
      | nil =>
          refine ⟨places, hgroup, ?_, fun place hmem => ⟨0, _, rfl, hhere place hmem⟩⟩
          rw [hgroups]
          simp
      | cons next bodies =>
          obtain ⟨others, hothers, hothersNames, hlater⟩ :=
            ih fun index => h (index + 1)
          have hwhole := (hgroup.append (.none ['|'])).append hothers
          rw [show behind (namedGroup name body.text) [] = [] from rfl, List.append_nil] at hwhole
          have hsource : sourceOf ((name, body) :: next :: bodies) =
              namedGroup name body.text ++ ['|'] ++ sourceOf (next :: bodies) := by
            rw [sourceOf, List.append_assoc, List.singleton_append]
            exact List.cons_ne_nil next bodies
          refine ⟨_, hsource ▸ hwhole, ?_, List.forall_mem_append.mpr
            ⟨fun place hmem => ⟨0, _, rfl, hhere place hmem⟩, List.forall_mem_map.mpr ?_⟩⟩
          · rw [List.map_append, hgroups, List.map_map]
            exact congrArg (groupsOf (ruleOf name body) ++ ·) hothersNames
          · intro place hmem
            obtain ⟨index, entry, hindex, heq | ⟨before, hbefore, heq⟩⟩ := hlater place hmem
            · refine ⟨index + 1, entry, hindex, .inl ?_⟩
              rw [heq]
              simp [leadOf]
            · refine ⟨index + 1, entry, hindex, .inr ⟨before, hbefore, ?_⟩⟩
              rw [heq]
              simp [leadOf]

structure Declares (pattern : NamedPattern) (rule : Rule) : Prop where
  name : rule.name = pattern.label
  properties : rule.properties.map Prod.fst = pattern.aliases
  nodup : pattern.aliases.Nodup

/-- The token shows properties of its rule, in their order, with pieces of its text. Text that
no rule matched shows none. -/
structure Token.Shows (grammar : Grammar) (token : Token) : Prop where
  other : token.rule = none → token.properties = []
  rule : ∀ index, token.rule = some index → ∃ rule, grammar.rules[index]? = some rule ∧
    token.name = rule.name ∧
    (token.properties.map Prod.fst).Sublist (rule.properties.map Prod.fst)
  values : ∀ entry ∈ token.properties, entry.2.toList <:+: token.text.toList

section

variable [UnicodeClasses] {patterns : List NamedPattern} {grammar : Grammar}

theorem declares_of_compile (hcompile : compile patterns = .ok grammar) :
    List.Forall₂ Declares (patterns.filter (!·.isPrivate)) grammar.rules := by
  obtain ⟨bodies, hexpand⟩ := expand_of_compile hcompile
  obtain ⟨expression, -, rfl, -⟩ := compile_eq_ok hexpand hcompile
  rw [List.forall₂_map_right_iff]
  refine (expansion_of_expand hexpand).imp fun pattern entry hentry => ?_
  refine ⟨hentry.name, ?_, hentry.properties ▸ hentry.nodup⟩
  rw [← hentry.properties, ruleOf, List.map_map]
  exact List.map_id _

def PatternBehind (patterns : List NamedPattern) (index : Nat) (before : List Char) : Prop :=
  ∃ pattern, (patterns.filter (!·.isPrivate))[index]? = some pattern ∧
    CapturesBehind patterns (some pattern.label) pattern.pieces before

theorem nodup_groups_of_compile (hcompile : compile patterns = .ok grammar)
    (halternatives : ∀ before, AlternativeBehind patterns before → Lexeme.TakesAtom before)
    (hproperties : ∀ before, PropertyBehind patterns before → Lexeme.TakesAtom before) :
    (grammar.rules.flatMap groupsOf).Nodup := by
  obtain ⟨bodies, hexpand⟩ := expand_of_compile hcompile
  have hexpansion := expansion_of_expand hexpand
  have hopens : ∀ index entry, bodies[index]? = some entry → ∃ places,
      OpensGroups entry.2.text places ∧
      places.map Prod.snd = entry.2.properties.map (groupName entry.1) ∧
      ∀ place ∈ places, PatternBehind patterns index place.1 := by
    intro index entry hindex
    obtain ⟨pattern, hpattern, hentry⟩ := exists_of_getElem? hexpansion hindex
    obtain ⟨places, hplaces, hnames, hcaptures⟩ := hentry.text.opensGroups
    exact ⟨places, hplaces, hnames.trans hentry.propertyGroups_eq,
      fun place hplace => ⟨pattern, hpattern, hcaptures place hplace⟩⟩
  obtain ⟨places, hplaces, hnames, hbehind⟩ := opensGroups_sourceOf hopens
  have hatoms : ∀ place ∈ places, Lexeme.TakesAtom place.1 := by
    intro place hmem
    obtain ⟨index, entry, hindex, hplace | ⟨inside, ⟨pattern, hpattern, hinside⟩, hplace⟩⟩ :=
      hbehind place hmem
    · exact halternatives _ (.intro hexpand (List.getElem?_eq_some_iff.mp hindex).1 hplace)
    · obtain ⟨other, hother, hentry⟩ := exists_of_getElem? hexpansion hindex
      cases hpattern.symm.trans hother
      exact hproperties _ (.intro hexpand hpattern hinside (hentry.name ▸ hplace))
  have hgroups : ∀ place ∈ places, Lexeme.IsGroupName place.2 := by
    intro place hmem
    have hname : place.2 ∈ bodies.flatMap fun entry => groupsOf (ruleOf entry.1 entry.2) :=
      hnames ▸ List.mem_map_of_mem hmem
    obtain ⟨entry, hentry, hgroup⟩ := List.mem_flatMap.mp hname
    exact isGroupName_of_compile hcompile hexpand hentry hgroup
  obtain ⟨expression, hread, rfl, -⟩ := compile_eq_ok hexpand hcompile
  obtain ⟨lexemes, hlexemes, hexpression, hnodup⟩ := Expression.lexemes_of_read? hread
  have hsublist : (places.map Prod.snd).Sublist (lexemes.flatMap Lexeme.names) :=
    Lexeme.sublist_names hlexemes (List.nil_append lexemes).symm hplaces
      (fun place hmem => ⟨hatoms place hmem, hgroups place hmem⟩)
      fun _ _ first _ => List.nil_prefix
  rw [hnames] at hsublist
  rw [List.flatMap_map]
  exact hsublist.nodup ((Expression.names_ofLexemes? hexpression).nodup_iff.mp hnodup)

end

section

variable {grammar : Grammar}

theorem getElem?_of_taken? {found : Pattern.Match} {index : Nat} {rule : Rule}
    (h : grammar.taken? found = some (index, rule)) : grammar.rules[index]? = some rule := by
  unfold taken? at h
  simp only at h
  split at h
  · next place first hindex hfind =>
      cases h
      rw [List.findIdx?_eq_some_iff_findIdx_eq] at hindex
      rw [← hindex.2, ← List.find?_eq_getElem?_findIdx, hfind]
  · cases h

theorem captured_sublist (rule : Rule) (text : List Char) (found : Pattern.Match) :
    ((captured rule text found).map Prod.fst).Sublist (rule.properties.map Prod.fst) := by
  rw [captured, List.map_filterMap]
  induction rule.properties with
  | nil => exact List.nil_sublist _
  | cons property properties ih =>
      obtain ⟨key, group⟩ := property
      cases hvalue : found.group? group text with
      | none =>
          simp only [List.filterMap_cons, hvalue, Option.map_none]
          exact ih.cons key
      | some value =>
          simp only [List.filterMap_cons, hvalue, Option.map_some]
          exact ih.cons_cons key

theorem infix_of_mem_captured {rule : Rule} {text : List Char} {found : Pattern.Match}
    {entry : String × String} (h : entry ∈ captured rule text found) :
    entry.2.toList <:+: text := by
  obtain ⟨⟨key, group⟩, -, h⟩ := List.mem_filterMap.mp h
  obtain ⟨value, hvalue, rfl⟩ := Option.map_eq_some_iff.mp h
  obtain ⟨⟨first, last⟩, -, rfl⟩ := Option.map_eq_some_iff.mp hvalue
  rw [String.toList_ofList]
  exact (List.drop_suffix _ _).isInfix.trans (List.take_prefix _ _).isInfix

theorem otherToken_shows (text : List Char) (first last : Nat) :
    (otherToken text first last).Shows grammar where
  other := fun _ => rfl
  rule := fun _ h => nomatch h
  values := fun _ h => nomatch h

theorem shows_of_mem_scan {text : String} {token : Token} (h : token ∈ grammar.scan text) :
    token.Shows grammar := by
  cases ofText_of_mem_scan h with
  | other first last h =>
      rw [h]
      exact otherToken_shows ..
  | found found h =>
      obtain ⟨-, rfl⟩ := h
      unfold matchToken
      cases htaken : grammar.taken? found with
      | none => exact otherToken_shows ..
      | some taken =>
          obtain ⟨index, rule⟩ := taken
          refine ⟨(nomatch ·), fun place h => ?_, fun entry h => ?_⟩
          · cases h
            exact ⟨rule, getElem?_of_taken? htaken, rfl, captured_sublist ..⟩
          · show entry.2.toList <:+: (String.ofList _).toList
            rw [String.toList_ofList]
            exact infix_of_mem_captured h

end

/-- Properties belong to the alternative whose pattern writes them, and are captured by groups
that no other one has, if all these groups open outside classes and comments. -/
theorem compile_captures [UnicodeClasses] {patterns : List NamedPattern} {grammar : Grammar}
    (hcompile : compile patterns = .ok grammar) :
    List.Forall₂ Declares (patterns.filter (!·.isPrivate)) grammar.rules ∧
      ((∀ before, AlternativeBehind patterns before → Lexeme.TakesAtom before) →
        (∀ before, PropertyBehind patterns before → Lexeme.TakesAtom before) →
        (grammar.rules.flatMap groupsOf).Nodup) ∧
      ∀ text, ∀ token ∈ grammar.scan text, token.Shows grammar :=
  ⟨declares_of_compile hcompile, nodup_groups_of_compile hcompile, fun _ _ => shows_of_mem_scan⟩

def tagged : List NamedPattern :=
  [⟨"!digit", "[0-9]"⟩, ⟨"a", "x<<b_c:digit>>?"⟩, ⟨"a_b", "y(?:<<d:digit>>|<<inner:a>>)"⟩]

def taggedBodies : List (String × Body) :=
  [("a", ⟨"x(?P<a_b_c>(?:[0-9]))?".toList, ["b_c"]⟩),
    ("a_b", ⟨"y(?:(?P<a_b_d>(?:[0-9]))|(?P<a_b_inner>(?:x(?:[0-9])?)))".toList, ["d", "inner"]⟩)]

theorem compile_captures_tagged :
    ∃ grammar, compile tagged = .ok grammar ∧
      (∀ before, AlternativeBehind tagged before → Lexeme.TakesAtom before) ∧
      (∀ before, PropertyBehind tagged before → Lexeme.TakesAtom before) ∧
      grammar.rules.map (fun rule => rule.properties.map Prod.fst) = [["b_c"], ["d", "inner"]] ∧
      (grammar.rules.flatMap groupsOf).Nodup ∧
      (grammar.scan "x1yx2").map Token.properties = [[("b_c", "1")], [("inner", "x2")]] ∧
      ∀ token ∈ grammar.scan "x1yx2", token.Shows grammar := by
  have hrun : (compile tagged).toOption.map (fun grammar =>
      (grammar.rules.map fun rule => rule.properties.map Prod.fst,
        (grammar.scan "x1yx2").map Token.properties)) =
      some ([["b_c"], ["d", "inner"]], [[("b_c", "1")], [("inner", "x2")]]) := by decide +kernel
  have hexpand : expand tagged = .ok taggedBodies := by decide +kernel
  have halternatives : ∀ before, AlternativeBehind tagged before → Lexeme.TakesAtom before :=
    forall_alternativeBehind hexpand (by decide +kernel)
  have hproperties : ∀ before, PropertyBehind tagged before → Lexeme.TakesAtom before :=
    forall_propertyBehind hexpand (by decide +kernel)
  cases hcompile : compile tagged with
  | error error => simp [hcompile, Except.toOption] at hrun
  | ok grammar =>
      simp only [hcompile, Except.toOption, Option.map_some, Option.some.injEq,
        Prod.mk.injEq] at hrun
      obtain ⟨-, hnodup, hshows⟩ := compile_captures hcompile
      exact ⟨grammar, rfl, halternatives, hproperties, hrun.1, hnodup halternatives hproperties,
        hrun.2, hshows "x1yx2"⟩

example : compile [⟨"!w", "w"⟩, ⟨"a", "<<b_c:w>>"⟩, ⟨"a_b", "<<c:w>>"⟩] =
    .error .invalidPattern := by decide +kernel

def openClass : List NamedPattern :=
  [⟨"z", "x["⟩, ⟨"a_b", "]"⟩, ⟨"!w", "w"⟩, ⟨"a", "<<b:w>>"⟩]

def openClassBodies : List (String × Body) :=
  [("z", ⟨"x[".toList, []⟩), ("a_b", ⟨"]".toList, []⟩), ("a", ⟨"(?P<a_b>(?:w))".toList, ["b"]⟩)]

theorem groups_repeated_openClass :
    ∃ grammar, compile openClass = .ok grammar ∧
      (∀ before, PropertyBehind openClass before → Lexeme.TakesAtom before) ∧
      ¬ (grammar.rules.flatMap groupsOf).Nodup := by
  have hgroups : (compile openClass).toOption.map (fun grammar =>
      grammar.rules.flatMap groupsOf) = some ["z", "a_b", "a", "a_b"] := by decide +kernel
  have hexpand : expand openClass = .ok openClassBodies := by decide +kernel
  have hproperties : ∀ before, PropertyBehind openClass before → Lexeme.TakesAtom before :=
    forall_propertyBehind hexpand (by decide +kernel)
  cases hcompile : compile openClass with
  | error error => simp [hcompile, Except.toOption] at hgroups
  | ok grammar =>
      simp only [hcompile, Except.toOption, Option.map_some, Option.some.injEq] at hgroups
      exact ⟨grammar, rfl, hproperties, by rw [hgroups]; decide⟩

/-- A comment that is left open does so as well. -/
example : (compile [⟨"z", "(?x)x #"⟩, ⟨"a_b", "\n"⟩, ⟨"!w", "w"⟩, ⟨"a", "<<b:w>>"⟩]).toOption.map
    (fun grammar => grammar.rules.flatMap groupsOf) = some ["z", "a_b", "a", "a_b"] := by
  decide +kernel

end Grammar

end DocMarkup
