import DocMarkup.Proofs.Pattern.Composition
import Mathlib.Data.List.Forall2

/-!
Patterns with holes.

A template is the syntax tree of a pattern in which holes stand where atoms may stand. Its
symbols are how it is written. If every hole is written as something that is read as one item,
the template is read as its tree with these items in the holes: nothing in a hole is taken apart
by what is written around it.
-/

namespace DocMarkup

open Expression

variable {α : Type}

inductive Symbol (α : Type)
  | lexeme (written : Lexeme)
  | hole (place : α)
  deriving DecidableEq, Repr

namespace Symbol

def spelled (spell : α → List Lexeme) : Symbol α → List Lexeme
  | .lexeme written => [written]
  | .hole place => spell place

/-- Flags that hold to the end of the enclosing group, or verbose mode in a group. -/
def setsFlags : Symbol α → Bool
  | .lexeme (.flags _) => true
  | .lexeme other => other.setsVerbose
  | _ => false

theorem setsVerbose_eq_false {item : Lexeme}
    (h : (lexeme item : Symbol α).setsFlags = false) : item.setsVerbose = false := by
  cases item with
  | flags changes => cases h
  | _ => exact h

end Symbol

def AllHoles (test : α → Prop) (symbols : List (Symbol α)) : Prop :=
  ∀ place, .hole place ∈ symbols → test place

section

variable {test : α → Prop} {first second : List (Symbol α)}

theorem AllHoles.left (h : AllHoles test (first ++ second)) : AllHoles test first :=
  fun place hmem => h place (List.mem_append_left _ hmem)

theorem AllHoles.right (h : AllHoles test (first ++ second)) : AllHoles test second :=
  fun place hmem => h place (List.mem_append_right _ hmem)

theorem AllHoles.tail {symbol : Symbol α} (h : AllHoles test (symbol :: first)) :
    AllHoles test first :=
  fun place hmem => h place (List.mem_cons_of_mem _ hmem)

end

mutual

inductive TemplateItem (α : Type)
  | atom (item : Expression) (h : item.isAtom = true)
  | hole (place : α)
  | group (kind : GroupKind) (body : Template α)
  | repeated (low : Nat) (high : Option Nat) (greedy : Bool) (item : TemplateItem α)

inductive TemplateBranch (α : Type)
  | nil
  | cons (item : TemplateItem α) (rest : TemplateBranch α)

inductive Template (α : Type)
  | last (branch : TemplateBranch α)
  | alt (branch : TemplateBranch α) (rest : Template α)

end

mutual

def TemplateItem.symbols : TemplateItem α → List (Symbol α)
  | .atom item _ => [.lexeme (.atom item)]
  | .hole place => [.hole place]
  | .group kind body =>
      .lexeme (.openGroup kind) :: body.symbols ++ [.lexeme .closeGroup]
  | .repeated low high greedy item => item.symbols ++ [.lexeme (.repetition low high greedy)]

def TemplateBranch.symbols : TemplateBranch α → List (Symbol α)
  | .nil => []
  | .cons item rest => item.symbols ++ rest.symbols

def Template.symbols : Template α → List (Symbol α)
  | .last branch => branch.symbols
  | .alt branch rest => branch.symbols ++ .lexeme .bar :: rest.symbols

end

mutual

def TemplateItem.fill (plant : α → Expression) : TemplateItem α → Expression
  | .atom item _ => item
  | .hole place => plant place
  | .group kind body => .group kind (ofBranches (body.branches plant))
  | .repeated low high greedy item => .repeated low high greedy (item.fill plant)

def TemplateBranch.items (plant : α → Expression) : TemplateBranch α → List Expression
  | .nil => []
  | .cons item rest => item.fill plant :: rest.items plant

def Template.branches (plant : α → Expression) : Template α → List Expression
  | .last branch => [ofItems (branch.items plant)]
  | .alt branch rest => ofItems (branch.items plant) :: rest.branches plant

end

def Template.fill (plant : α → Expression) (template : Template α) : Expression :=
  ofBranches (template.branches plant)

/-- The lexemes are read as one item, wherever they stand. -/
structure AddsItem (lexemes : List Lexeme) (item : Expression) : Prop where
  flags : Level.isFlags item = false
  run : ∀ level outer, Reader.run? ⟨level, outer⟩ lexemes = some ⟨level.add item, outer⟩

theorem ofLexemes?_of_run {lexemes : List Lexeme} {level : Level} {expression : Expression}
    (hrun : Reader.run? {} lexemes = some ⟨level, []⟩) (hfinish : level.finish = expression) :
    ofLexemes? lexemes = some expression := by
  rw [ofLexemes?, hrun]
  exact congrArg some hfinish

theorem AddsItem.reads {lexemes : List Lexeme} {item : Expression} (h : AddsItem lexemes item) :
    ofLexemes? lexemes = some item :=
  ofLexemes?_of_run (h.run {} []) rfl

theorem AddsItem.group {lexemes : List Lexeme} {body : Expression} (kind : GroupKind)
    (h : ofLexemes? lexemes = some body) :
    AddsItem (.openGroup kind :: (lexemes ++ [.closeGroup])) (.group kind body) :=
  ⟨rfl, fun level outer => run?_group h level outer []⟩

theorem AddsItem.repeated {lexemes : List Lexeme} {item : Expression} (low : Nat)
    (high : Option Nat) (greedy : Bool) (h : AddsItem lexemes item) :
    AddsItem (lexemes ++ [.repetition low high greedy]) (.repeated low high greedy item) := by
  refine ⟨rfl, fun level outer => ?_⟩
  rw [Reader.run?_append, h.run, Option.bind_some, Reader.run?_cons]
  have hrepeat : (level.add item).repeat? low high greedy =
      some (level.add (.repeated low high greedy item)) := by
    simp only [Level.repeat?, Level.add, h.flags, Bool.false_eq_true, if_false]
  rw [Reader.step?, hrepeat]
  rfl

theorem isFlags_of_isAtom {item : Expression} (h : item.isAtom = true) :
    Level.isFlags item = false := by
  cases item with
  | flags => cases h
  | _ => rfl

section

variable {spell : α → List Lexeme} {plant : α → Expression}

/-- What is written in the holes is read as what is planted there. -/
def Fits (spell : α → List Lexeme) (plant : α → Expression) (symbols : List (Symbol α)) : Prop :=
  AllHoles (fun place => AddsItem (spell place) (plant place)) symbols

mutual

theorem TemplateItem.adds (item : TemplateItem α) (h : Fits spell plant item.symbols) :
    AddsItem (item.symbols.flatMap (Symbol.spelled spell)) (item.fill plant) := by
  cases item with
  | atom item hatom =>
      rw [TemplateItem.symbols, TemplateItem.fill]
      exact ⟨isFlags_of_isAtom hatom, fun _ _ => rfl⟩
  | hole place =>
      rw [TemplateItem.symbols, TemplateItem.fill, List.flatMap_singleton]
      exact h place (by rw [TemplateItem.symbols]; exact List.mem_cons_self)
  | group kind body =>
      obtain ⟨level, hrun, hfinish⟩ := body.run h.tail.left [] []
      have hadds := AddsItem.group kind (ofLexemes?_of_run hrun hfinish)
      rw [TemplateItem.symbols, TemplateItem.fill, List.flatMap_append, List.flatMap_cons]
      exact hadds
  | repeated low high greedy item =>
      have hadds := (item.adds h.left).repeated low high greedy
      rw [TemplateItem.symbols, TemplateItem.fill, List.flatMap_append]
      exact hadds

theorem TemplateBranch.run (branch : TemplateBranch α) (h : Fits spell plant branch.symbols)
    (level : Level) (outer : List (GroupKind × Level)) :
    Reader.run? ⟨level, outer⟩ (branch.symbols.flatMap (Symbol.spelled spell)) =
      some ⟨{ level with items := (branch.items plant).reverse ++ level.items }, outer⟩ := by
  cases branch with
  | nil => rfl
  | cons item rest =>
      have hitem := item.adds h.left
      have hrest := rest.run h.right
      rw [TemplateBranch.symbols, List.flatMap_append, Reader.run?_append, hitem.run,
        Option.bind_some, hrest]
      simp [TemplateBranch.items, Level.add]

theorem Template.run (template : Template α) (h : Fits spell plant template.symbols)
    (branches : List Expression) (outer : List (GroupKind × Level)) :
    ∃ level : Level,
      Reader.run? ⟨⟨branches, []⟩, outer⟩ (template.symbols.flatMap (Symbol.spelled spell)) =
        some ⟨level, outer⟩ ∧
      level.finish = ofBranches (branches.reverse ++ template.branches plant) := by
  cases template with
  | last branch =>
      refine ⟨_, branch.run h _ outer, ?_⟩
      simp [Level.finish, Level.branch, Template.branches]
  | alt branch rest =>
      have hbranch := branch.run h.left ⟨branches, []⟩ outer
      obtain ⟨level, hrun, hfinish⟩ := rest.run h.right.tail
        (ofItems (branch.items plant) :: branches) outer
      refine ⟨level, ?_, ?_⟩
      · rw [Template.symbols, List.flatMap_append, Reader.run?_append, hbranch, Option.bind_some,
          List.flatMap_cons, Symbol.spelled, List.singleton_append, Reader.run?_cons]
        simpa [Reader.step?, Level.bar, Level.branch] using hrun
      · rw [hfinish, Template.branches, List.reverse_cons, List.append_assoc,
          List.singleton_append]

end

theorem Template.reads (template : Template α) (h : Fits spell plant template.symbols) :
    ofLexemes? (template.symbols.flatMap (Symbol.spelled spell)) = some (template.fill plant) := by
  obtain ⟨level, hrun, hfinish⟩ := template.run h [] []
  exact ofLexemes?_of_run hrun hfinish

end

/-- Expressions that mean the same and leave the flags as they are. -/
structure Alike (first second : Expression) : Prop where
  lower : ∀ flags, first.lower flags = second.lower flags
  keeps : ∀ flags, (second.lower flags).1 = flags

theorem alike_of_isAtom {item : Expression} (h : item.isAtom = true) : Alike item item := by
  refine ⟨fun _ => rfl, fun flags => ?_⟩
  cases item with
  | empty | flags | group | repeated | seq | alt => cases h
  | _ => rfl

namespace Alike

variable {first second third fourth : Expression}

theorem group (kind : GroupKind) (h : Alike first second) :
    Alike (.group kind first) (.group kind second) :=
  ⟨fun flags => by rw [Expression.lower, Expression.lower, h.lower], fun _ => rfl⟩

theorem plainGroup (h : Alike first second) : Alike (.group (.flagged []) first) second := by
  refine ⟨fun flags => ?_, h.keeps⟩
  calc (Expression.group (.flagged []) first).lower flags
      _ = (flags, (first.lower flags).2) := rfl
      _ = second.lower flags := by rw [h.lower]; exact Prod.ext (h.keeps flags).symm rfl

theorem repeated (low : Nat) (high : Option Nat) (greedy : Bool) (h : Alike first second) :
    Alike (.repeated low high greedy first) (.repeated low high greedy second) :=
  ⟨fun flags => by rw [Expression.lower, Expression.lower, h.lower], fun _ => rfl⟩

theorem seq (hfirst : Alike first second) (hsecond : Alike third fourth) :
    Alike (.seq first third) (.seq second fourth) := by
  refine ⟨fun flags => ?_, fun flags => ?_⟩
  · simp only [Expression.lower, hfirst.lower, hsecond.lower]
  · simp only [Expression.lower, hfirst.keeps, hsecond.keeps]

theorem alt (hfirst : Alike first second) (hsecond : Alike third fourth) :
    Alike (.alt first third) (.alt second fourth) := by
  refine ⟨fun flags => ?_, fun flags => ?_⟩
  · simp only [Expression.lower, hfirst.lower, hsecond.lower]
  · simp only [Expression.lower, hfirst.keeps, hsecond.keeps]

theorem ofItems {items others : List Expression} (h : List.Forall₂ Alike items others) :
    Alike (ofItems items) (ofItems others) := by
  induction h with
  | nil => exact ⟨fun _ => rfl, fun _ => rfl⟩
  | cons hitem hrest ih =>
      cases hrest with
      | nil => exact hitem
      | cons => exact hitem.seq ih

theorem ofBranches {branches others : List Expression}
    (h : List.Forall₂ Alike branches others) : Alike (ofBranches branches) (ofBranches others) := by
  induction h with
  | nil => exact ⟨fun _ => rfl, fun _ => rfl⟩
  | cons hbranch hrest ih =>
      cases hrest with
      | nil => exact hbranch
      | cons => exact hbranch.alt ih

end Alike

section

variable {plant other : α → Expression}

mutual

theorem TemplateItem.fill_alike (item : TemplateItem α)
    (h : AllHoles (fun place => Alike (plant place) (other place)) item.symbols) :
    Alike (item.fill plant) (item.fill other) := by
  cases item with
  | atom item hatom =>
      rw [TemplateItem.fill, TemplateItem.fill]
      exact alike_of_isAtom hatom
  | hole place =>
      rw [TemplateItem.fill, TemplateItem.fill]
      exact h place (by rw [TemplateItem.symbols]; exact List.mem_cons_self)
  | group kind body =>
      rw [TemplateItem.fill, TemplateItem.fill]
      exact (Alike.ofBranches (body.branches_alike h.tail.left)).group kind
  | repeated low high greedy item =>
      rw [TemplateItem.fill, TemplateItem.fill]
      exact (item.fill_alike h.left).repeated low high greedy

theorem TemplateBranch.items_alike (branch : TemplateBranch α)
    (h : AllHoles (fun place => Alike (plant place) (other place)) branch.symbols) :
    List.Forall₂ Alike (branch.items plant) (branch.items other) := by
  cases branch with
  | nil => exact .nil
  | cons item rest => exact .cons (item.fill_alike h.left) (rest.items_alike h.right)

theorem Template.branches_alike (template : Template α)
    (h : AllHoles (fun place => Alike (plant place) (other place)) template.symbols) :
    List.Forall₂ Alike (template.branches plant) (template.branches other) := by
  cases template with
  | last branch => exact .cons (.ofItems (branch.items_alike h)) .nil
  | alt branch rest =>
      exact .cons (.ofItems (branch.items_alike h.left)) (rest.branches_alike h.right.tail)

end

theorem Template.fill_alike (template : Template α)
    (h : AllHoles (fun place => Alike (plant place) (other place)) template.symbols) :
    Alike (template.fill plant) (template.fill other) :=
  .ofBranches (template.branches_alike h)

end

/-- The lexeme as which a symbol is read: a hole counts as an atom. -/
def Symbol.asLexeme : Symbol α → Lexeme
  | .lexeme written => written
  | .hole _ => .atom .dot

/-- Neither flags nor an atom that is none. -/
def Symbol.IsPlain : Symbol α → Prop
  | .lexeme (.atom item) => item.isAtom = true
  | .lexeme (.flags _) => False
  | _ => True

def TemplateBranch.ofItems : List (TemplateItem α) → TemplateBranch α
  | [] => .nil
  | item :: items => .cons item (ofItems items)

theorem TemplateBranch.symbols_ofItems (items : List (TemplateItem α)) :
    (ofItems items).symbols = items.flatMap TemplateItem.symbols := by
  induction items with
  | nil => rfl
  | cons item items ih => rw [ofItems, TemplateBranch.symbols, ih, List.flatMap_cons]

/-- A template that is being read: its finished branches and the items of the current one, both
latest first. -/
structure TemplateLevel (α : Type) where
  branches : List (TemplateBranch α) := []
  items : List (TemplateItem α) := []

namespace TemplateLevel

def add (level : TemplateLevel α) (item : TemplateItem α) : TemplateLevel α :=
  { level with items := item :: level.items }

def branch (level : TemplateLevel α) : TemplateBranch α :=
  .ofItems level.items.reverse

def bar (level : TemplateLevel α) : TemplateLevel α :=
  ⟨level.branch :: level.branches, []⟩

def finish (level : TemplateLevel α) : Template α :=
  level.branches.foldl (fun rest branch => .alt branch rest) (.last level.branch)

def symbols (level : TemplateLevel α) : List (Symbol α) :=
  level.branches.reverse.flatMap (fun branch => branch.symbols ++ [.lexeme .bar]) ++
    level.items.reverse.flatMap TemplateItem.symbols

theorem symbols_add (level : TemplateLevel α) (item : TemplateItem α) :
    (level.add item).symbols = level.symbols ++ item.symbols := by
  simp [symbols, add]

theorem symbols_bar (level : TemplateLevel α) :
    level.bar.symbols = level.symbols ++ [.lexeme .bar] := by
  simp [symbols, bar, branch, TemplateBranch.symbols_ofItems]

theorem symbols_foldl (branches : List (TemplateBranch α)) (template : Template α) :
    (branches.foldl (fun rest branch => Template.alt branch rest) template).symbols =
      branches.reverse.flatMap (fun branch => branch.symbols ++ [.lexeme .bar]) ++
        template.symbols := by
  induction branches generalizing template with
  | nil => rfl
  | cons branch branches ih =>
      rw [List.foldl_cons, ih, Template.symbols]
      simp

theorem symbols_finish (level : TemplateLevel α) : level.finish.symbols = level.symbols := by
  rw [finish, symbols_foldl, Template.symbols, branch, TemplateBranch.symbols_ofItems, symbols]

end TemplateLevel

/-- The current level, and the open groups with the levels around them, innermost first. -/
structure TemplateReader (α : Type) where
  current : TemplateLevel α := {}
  enclosing : List (GroupKind × TemplateLevel α) := []

namespace TemplateReader

def symbols (reader : TemplateReader α) : List (Symbol α) :=
  reader.enclosing.reverse.flatMap
    (fun group => group.2.symbols ++ [.lexeme (.openGroup group.1)]) ++ reader.current.symbols

structure Mirrors (reader : TemplateReader α) (other : Reader) : Prop where
  current : reader.current.items.length = other.current.items.length
  enclosing : List.Forall₂ (fun group outer => group.2.items.length = outer.2.items.length)
    reader.enclosing other.enclosing

variable {reader : TemplateReader α} {other after : Reader}

theorem Mirrors.add (h : reader.Mirrors other) (item : TemplateItem α) (read : Expression) :
    ∃ next : TemplateReader α,
      next.Mirrors { other with current := other.current.add read } ∧
      next.symbols = reader.symbols ++ item.symbols := by
  refine ⟨⟨reader.current.add item, reader.enclosing⟩,
    ⟨congrArg (· + 1) h.current, h.enclosing⟩, ?_⟩
  rw [symbols, TemplateLevel.symbols_add, symbols, List.append_assoc]

theorem Mirrors.repeat {low : Nat} {high : Option Nat} {greedy : Bool} {current : Level}
    (h : reader.Mirrors other) (hrepeat : other.current.repeat? low high greedy = some current) :
    ∃ next : TemplateReader α, next.Mirrors { other with current } ∧
      next.symbols = reader.symbols ++ [.lexeme (.repetition low high greedy)] := by
  obtain ⟨⟨branches, items⟩, enclosing⟩ := reader
  have hcurrent := h.current
  unfold Level.repeat? at hrepeat
  split at hrepeat
  · cases hrepeat
  · next read reads hreads =>
      split at hrepeat
      · cases hrepeat
      · cases hrepeat
        rw [hreads] at hcurrent
        cases items with
        | nil => cases hcurrent
        | cons item items =>
            refine ⟨⟨⟨branches, .repeated low high greedy item :: items⟩, enclosing⟩,
              ⟨hcurrent, h.enclosing⟩, ?_⟩
            simp [symbols, TemplateLevel.symbols, TemplateItem.symbols]

theorem Mirrors.close (h : reader.Mirrors other) (hstep : other.step? .closeGroup = some after) :
    ∃ next : TemplateReader α, next.Mirrors after ∧
      next.symbols = reader.symbols ++ [.lexeme .closeGroup] := by
  obtain ⟨current, enclosing⟩ := reader
  obtain ⟨otherCurrent, otherEnclosing⟩ := other
  obtain ⟨-, henclosing⟩ := h
  cases henclosing with
  | nil => cases hstep
  | @cons group otherGroup rest otherRest hgroup hrest =>
      obtain ⟨kind, outer⟩ := group
      cases hstep
      refine ⟨⟨outer.add (.group kind current.finish), rest⟩, ⟨congrArg (· + 1) hgroup, hrest⟩, ?_⟩
      simp [symbols, TemplateLevel.symbols_add, TemplateItem.symbols, TemplateLevel.symbols_finish]

/-- Every lexeme that can be read leads on to a longer part of a template. -/
theorem Mirrors.step {symbol : Symbol α} (h : reader.Mirrors other) (hplain : symbol.IsPlain)
    (hstep : other.step? symbol.asLexeme = some after) :
    ∃ next : TemplateReader α, next.Mirrors after ∧
      next.symbols = reader.symbols ++ [symbol] := by
  cases symbol with
  | hole place =>
      cases hstep
      exact h.add (.hole place) .dot
  | lexeme written =>
      cases written with
      | atom item =>
          cases hstep
          exact h.add (.atom item hplain) item
      | flags changes => exact hplain.elim
      | repetition low high greedy =>
          obtain ⟨current, hrepeat, rfl⟩ := Option.map_eq_some_iff.mp hstep
          exact h.repeat hrepeat
      | bar =>
          cases hstep
          refine ⟨⟨reader.current.bar, reader.enclosing⟩, ⟨rfl, h.enclosing⟩, ?_⟩
          rw [symbols, TemplateLevel.symbols_bar, symbols, List.append_assoc]
      | openGroup kind =>
          cases hstep
          refine ⟨⟨{}, (kind, reader.current) :: reader.enclosing⟩,
            ⟨rfl, .cons h.current h.enclosing⟩, ?_⟩
          simp [symbols, TemplateLevel.symbols]
      | closeGroup => exact h.close hstep

theorem Mirrors.run {rest : List (Symbol α)} (h : reader.Mirrors other)
    (hplain : ∀ symbol ∈ rest, symbol.IsPlain)
    (hrun : other.run? (rest.map Symbol.asLexeme) = some after) :
    ∃ last : TemplateReader α, last.Mirrors after ∧ last.symbols = reader.symbols ++ rest := by
  induction rest generalizing reader other with
  | nil =>
      cases hrun
      exact ⟨reader, h, (List.append_nil _).symm⟩
  | cons symbol rest ih =>
      rw [List.map_cons, Reader.run?_cons] at hrun
      obtain ⟨middle, hstep, hrun⟩ := Option.bind_eq_some_iff.mp hrun
      obtain ⟨hsymbol, hrest⟩ := List.forall_mem_cons.mp hplain
      obtain ⟨next, hnext, hsymbols⟩ := h.step hsymbol hstep
      obtain ⟨last, hlast, heq⟩ := ih hnext hrest hrun
      exact ⟨last, hlast, by rw [heq, hsymbols, List.append_assoc, List.singleton_append]⟩

end TemplateReader

/-- What can be read with atoms in the holes is written by a template. -/
theorem exists_template {symbols : List (Symbol α)}
    (hplain : ∀ symbol ∈ symbols, symbol.IsPlain)
    (hread : (ofLexemes? (symbols.map Symbol.asLexeme)).isSome = true) :
    ∃ template : Template α, template.symbols = symbols := by
  obtain ⟨expression, hread⟩ := Option.isSome_iff_exists.mp hread
  obtain ⟨reader, hrun, hfinish⟩ := Option.bind_eq_some_iff.mp hread
  have hstart : ({} : TemplateReader α).Mirrors {} := ⟨rfl, .nil⟩
  obtain ⟨⟨current, enclosing⟩, hlast, hsymbols⟩ := hstart.run hplain hrun
  unfold Reader.finish? at hfinish
  split at hfinish
  · next hclosed =>
      have henclosing := hlast.enclosing
      rw [List.isEmpty_iff.mp hclosed, List.forall₂_nil_right_iff] at henclosing
      cases henclosing
      exact ⟨current.finish, current.symbols_finish.trans hsymbols⟩
  · cases hfinish

end DocMarkup
