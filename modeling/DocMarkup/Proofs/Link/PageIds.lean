import Mathlib.Data.List.TakeWhile
import DocMarkup.Link.PageId

/-!
When page ids tell entities apart.

The id of a page spells the way from a namespace down to an entity, each name after a sign. If no
name has such a sign in it, the way can be read off the id. So ids tell entities apart just if no
siblings have one name after one sign. There are only two signs, and members of several kinds share
each of them.
-/

namespace DocMarkup

def IsSign (char : Char) : Prop :=
  char = '.' ∨ char = '-'

instance (char : Char) : Decidable (IsSign char) :=
  inferInstanceAs (Decidable (_ ∨ _))

abbrev Way := List (Char × String)

namespace Way

def spelled (way : Way) : List Char :=
  way.flatMap fun step => step.1 :: step.2.toList

/-- Signs stand before names and not in them. -/
def Plain (way : Way) : Prop :=
  ∀ step ∈ way, IsSign step.1 ∧ ∀ char ∈ step.2.toList, ¬ IsSign char

variable {sign : Char} {name : String} {way first second : Way}

theorem takeWhile_spelled (h : Plain way) :
    way.spelled.takeWhile (fun char => decide (¬ IsSign char)) = [] := by
  cases way with
  | nil => rfl
  | cons step rest => simp [spelled, (h step List.mem_cons_self).1]

theorem takeWhile_name (h : Plain ((sign, name) :: way)) :
    (name.toList ++ way.spelled).takeWhile (fun char => decide (¬ IsSign char)) = name.toList := by
  obtain ⟨⟨-, hname⟩, hway⟩ := List.forall_mem_cons.mp h
  rw [List.takeWhile_append_of_pos fun char hchar => decide_eq_true (hname char hchar),
    takeWhile_spelled hway, List.append_nil]

theorem spelled_inj (hfirst : Plain first) (hsecond : Plain second)
    (h : first.spelled = second.spelled) : first = second := by
  induction first generalizing second with
  | nil =>
      cases second with
      | nil => rfl
      | cons step rest => cases h
  | cons step rest ih =>
      cases second with
      | nil => cases h
      | cons step' rest' =>
          obtain ⟨sign, name⟩ := step
          obtain ⟨sign', name'⟩ := step'
          obtain ⟨rfl, htails⟩ := List.cons.inj h
          have hnames : name.toList = name'.toList := by
            rw [← takeWhile_name hfirst, ← takeWhile_name hsecond]
            exact congrArg _ htails
          cases String.toList_inj.mp hnames
          have hrest := List.append_cancel_left htails
          rw [ih (List.forall_mem_cons.mp hfirst).2 (List.forall_mem_cons.mp hsecond).2 hrest]

end Way

def Entity.step (entity : Entity) : Char × String :=
  if entity.kind.isHyphenated then ('-', entity.name) else ('.', entity.publicName)

namespace Lineage

def way : Lineage → Way
  | top entity => [('.', entity.publicName)]
  | member entity parent => parent.way ++ [entity.step]

theorem way_ne_nil (lineage : Lineage) : lineage.way ≠ [] := by
  cases lineage <;> simp [way]

theorem toList_pageId (space : String) (lineage : Lineage) :
    (lineage.pageId space).toList = space.toList ++ lineage.way.spelled := by
  induction lineage with
  | top entity => simp [pageId, way, Way.spelled]
  | member entity parent ih =>
      rw [pageId, way, Way.spelled, List.flatMap_append, ← Way.spelled, ← List.append_assoc, ← ih,
        Entity.step]
      split <;> simp

end Lineage

namespace Namespace

variable {space : Namespace}

/-- No name has a sign in it that sets off names in page ids, and no function stands in the place
of another. -/
structure PlainlyNamed (space : Namespace) : Prop where
  names : ∀ id, ∀ char ∈ (space.entity id).name.toList, ¬ IsSign char
  shadows : ∀ id, (space.entity id).kind.shadows? = none

theorem plainlyNamed_iff :
    space.PlainlyNamed ↔ ∀ id,
      ((space.entity id).name.toList.all fun char => !decide (IsSign char)) ∧
        (space.entity id).kind.shadows? = none := by
  simp only [List.all_eq_true, Bool.not_eq_true', decide_eq_false_iff_not, forall_and]
  exact ⟨fun h => ⟨h.names, h.shadows⟩, fun h => ⟨h.1, h.2⟩⟩

-- Tests the characters of each name; by itself `decide` would go over all characters there are.
instance (space : Namespace) : Decidable space.PlainlyNamed :=
  decidable_of_iff _ plainlyNamed_iff.symm

/-- Siblings of one name, which stands after one sign. At the top of a namespace that is always
the dot. -/
structure Alike (space : Namespace) (first second : space.Id) : Prop where
  parent : space.parent? first = space.parent? second
  name : (space.entity first).name = (space.entity second).name
  sign : space.parent? first ≠ none →
    (space.entity first).kind.isHyphenated = (space.entity second).kind.isHyphenated

def DistinctByKind (space : Namespace) : Prop :=
  ∀ first second : space.Id, space.parent? first = space.parent? second →
    (space.entity first).kind.ctorIdx = (space.entity second).kind.ctorIdx →
    (space.entity first).name = (space.entity second).name → first = second

section

variable (hplain : space.PlainlyNamed)

include hplain

theorem PlainlyNamed.publicName (id : space.Id) :
    (space.entity id).publicName = (space.entity id).name := by
  rw [Entity.publicName, hplain.shadows id, Option.getD_none]

theorem PlainlyNamed.step (id : space.Id) :
    (space.entity id).step =
      (if (space.entity id).kind.isHyphenated then '-' else '.', (space.entity id).name) := by
  rw [Entity.step, hplain.publicName id]
  split <;> rfl

theorem PlainlyNamed.way (id : space.Id) : (space.lineage id).way.Plain := by
  fun_induction Namespace.lineage space id with
  | case1 id hparent =>
      rw [Lineage.way, hplain.publicName id]
      exact List.forall_mem_singleton.mpr ⟨.inl rfl, hplain.names id⟩
  | case2 id owner hparent ih =>
      rw [Lineage.way, hplain.step id]
      refine List.forall_mem_append.mpr ⟨ih, List.forall_mem_singleton.mpr ⟨?_, hplain.names id⟩⟩
      split
      · exact .inr rfl
      · exact .inl rfl

theorem PlainlyNamed.alike_of_step {first second : space.Id}
    (hparent : space.parent? first = space.parent? second)
    (hstep : (space.entity first).step = (space.entity second).step) :
    space.Alike first second := by
  rw [hplain.step, hplain.step] at hstep
  obtain ⟨hsign, hname⟩ := Prod.mk.inj hstep
  refine ⟨hparent, hname, fun _ => ?_⟩
  revert hsign
  cases (space.entity first).kind.isHyphenated <;> cases (space.entity second).kind.isHyphenated <;>
    decide

theorem PlainlyNamed.step_of_alike {first second : space.Id} (h : space.Alike first second)
    (hmember : space.parent? first ≠ none) :
    (space.entity first).step = (space.entity second).step := by
  rw [hplain.step, hplain.step, h.name, h.sign hmember]

-- By induction along the parents. A way has one step just if its entity is at the top.
theorem PlainlyNamed.eq_of_way
    (halike : ∀ first second, space.Alike first second → first = second)
    {first second : space.Id} (h : (space.lineage first).way = (space.lineage second).way) :
    first = second := by
  cases hfirst : space.parent? first with
  | none =>
      cases hsecond : space.parent? second with
      | none =>
          rw [lineage_top hfirst, lineage_top hsecond, Lineage.way, Lineage.way,
            hplain.publicName, hplain.publicName] at h
          have hname := (Prod.mk.inj (List.singleton_inj.mp h)).2
          exact halike _ _ ⟨hfirst.trans hsecond.symm, hname, fun hmember => absurd hfirst hmember⟩
      | some owner =>
          rw [lineage_top hfirst, lineage_member hsecond, Lineage.way, Lineage.way] at h
          exact absurd (List.append_eq_singleton_iff.mp h.symm) (by simp [Lineage.way_ne_nil])
  | some owner =>
      cases hsecond : space.parent? second with
      | none =>
          rw [lineage_member hfirst, lineage_top hsecond, Lineage.way, Lineage.way] at h
          exact absurd (List.append_eq_singleton_iff.mp h) (by simp [Lineage.way_ne_nil])
      | some owner' =>
          rw [lineage_member hfirst, lineage_member hsecond, Lineage.way, Lineage.way] at h
          obtain ⟨howners, hsteps⟩ := List.append_inj' h rfl
          have howner := PlainlyNamed.eq_of_way halike howners
          exact halike _ _ (hplain.alike_of_step (by rw [hfirst, hsecond, howner])
            (List.singleton_inj.mp hsteps))
termination_by first.val
decreasing_by exact parent?_lt hfirst

theorem PlainlyNamed.way_of_alike {first second : space.Id} (h : space.Alike first second) :
    (space.lineage first).way = (space.lineage second).way := by
  cases hfirst : space.parent? first with
  | none =>
      rw [lineage_top hfirst, lineage_top (h.parent.symm.trans hfirst), Lineage.way, Lineage.way,
        hplain.publicName, hplain.publicName, h.name]
  | some owner =>
      have hmember : space.parent? first ≠ none := by simp [hfirst]
      rw [lineage_member hfirst, lineage_member (h.parent.symm.trans hfirst), Lineage.way,
        Lineage.way, hplain.step_of_alike h hmember]

end

end Namespace

namespace Repository

variable {repo : Repository} {space : repo.SpaceId}

theorem pageId_eq_iff (hplain : (repo.space space).PlainlyNamed)
    {first second : (repo.space space).Id} :
    (⟨space, first⟩ : repo.Ref).pageId = (⟨space, second⟩ : repo.Ref).pageId ↔
      ((repo.space space).lineage first).way = ((repo.space space).lineage second).way := by
  rw [← String.toList_inj, Ref.pageId, Ref.pageId, Lineage.toList_pageId, Lineage.toList_pageId]
  constructor
  · intro h
    exact Way.spelled_inj (hplain.way first) (hplain.way second) (List.append_cancel_left h)
  · intro h
    simp only [Ref.lineage, h]
    rfl

/-- In a namespace whose names have no signs in them, page ids tell all entities apart just if no
two siblings have one name after one sign, be they of one kind or not. -/
theorem pageId_injective_iff (hplain : (repo.space space).PlainlyNamed) :
    (Function.Injective fun id : (repo.space space).Id => (⟨space, id⟩ : repo.Ref).pageId) ↔
      ∀ first second, (repo.space space).Alike first second → first = second := by
  constructor
  · exact fun h first second halike => h ((pageId_eq_iff hplain).mpr (hplain.way_of_alike halike))
  · exact fun h first second heq => hplain.eq_of_way h ((pageId_eq_iff hplain).mp heq)

def drawing (others : List EntityKind) : Repository :=
  .ofDecl {
    space := {
      name := "Gtk"
      version := "3.0"
      entities := [
        { name := "Widget"
          kind := .classType none [] none
          children := (.function { isMethod := true } :: .signal {} :: others).map fun kind =>
            { name := "draw", kind } }] } }

def drawn {others : List EntityKind} : (drawing others).SpaceId :=
  ⟨0, Nat.succ_pos _⟩

theorem pageId_injective_drawing :
    ((drawing []).space drawn).PlainlyNamed ∧
      Function.Injective fun id => (⟨drawn, id⟩ : (drawing []).Ref).pageId := by
  have hplain : ((drawing []).space drawn).PlainlyNamed := by decide +kernel
  have hsigns : ∀ first second, ((drawing []).space drawn).parent? first ≠ none →
      ((drawing []).space drawn).parent? first = ((drawing []).space drawn).parent? second →
      (((drawing []).space drawn).entity first).kind.isHyphenated =
        (((drawing []).space drawn).entity second).kind.isHyphenated → first = second := by
    decide +kernel
  have htops : ∀ first second, ((drawing []).space drawn).parent? first = none →
      ((drawing []).space drawn).parent? second = none → first = second := by
    decide +kernel
  refine ⟨hplain, (pageId_injective_iff hplain).mpr fun first second halike => ?_⟩
  by_cases hmember : ((drawing []).space drawn).parent? first = none
  · exact htops first second hmember (halike.parent.symm.trans hmember)
  · exact hsigns first second hmember halike.parent (halike.sign hmember)

/-- A signal and a virtual function of one name share their page id, although they are of
different kinds. -/
theorem not_pageId_injective_drawing :
    ((drawing [.virtualFunction {}]).space drawn).PlainlyNamed ∧
      ((drawing [.virtualFunction {}]).space drawn).DistinctByKind ∧
      ¬ Function.Injective fun id =>
        (⟨drawn, id⟩ : (drawing [.virtualFunction {}]).Ref).pageId := by
  refine ⟨by decide +kernel, ?_, fun hinjective => ?_⟩
  · unfold Namespace.DistinctByKind
    decide +kernel
  · have hsame := @hinjective ⟨2, by decide⟩ ⟨3, by decide⟩ (by decide +kernel)
    exact absurd hsame (by decide)

end Repository

end DocMarkup
