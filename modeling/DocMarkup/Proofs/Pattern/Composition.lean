import DocMarkup.Pattern.Reading
import DocMarkup.Proofs.Pattern.Alternatives
import DocMarkup.Proofs.Pattern.Lexing
import Mathlib.Tactic.Tauto

/-!
Reading patterns that are put together.

Groups with bars between them read as the alternatives that the groups hold, if these can be
read on their own: a reader inside a group does not look at what is around it.
-/

namespace DocMarkup

namespace Expression

namespace Reader

def within (outer : List (GroupKind × Level)) (reader : Reader) : Reader :=
  { reader with enclosing := reader.enclosing ++ outer }

variable {reader after : Reader} {outer : List (GroupKind × Level)}

theorem step?_within {lexeme : Lexeme} (h : reader.step? lexeme = some after) :
    (reader.within outer).step? lexeme = some (after.within outer) := by
  cases lexeme with
  | repetition low high greedy =>
      obtain ⟨current, hcurrent, rfl⟩ := Option.map_eq_some_iff.mp h
      exact Option.map_eq_some_iff.mpr ⟨current, hcurrent, rfl⟩
  | closeGroup =>
      obtain ⟨current, enclosing⟩ := reader
      cases enclosing with
      | nil => cases h
      | cons group enclosing =>
          cases h
          rfl
  | _ =>
      cases h
      rfl

theorem run?_cons (lexeme : Lexeme) (lexemes : List Lexeme) :
    reader.run? (lexeme :: lexemes) = (reader.step? lexeme).bind (·.run? lexemes) := by
  rw [run?, List.foldlM_cons]
  rfl

theorem run?_append (lexemes others : List Lexeme) :
    reader.run? (lexemes ++ others) = (reader.run? lexemes).bind (·.run? others) := by
  rw [run?, List.foldlM_append]
  rfl

theorem drop_modes {lexemes : List Lexeme} (h : reader.run? lexemes = some after)
    (modes : Lexeme.Modes) :
    (lexemes.foldl Lexeme.Modes.after modes).drop (after.enclosing.length + 1) =
      modes.drop (reader.enclosing.length + 1) := by
  induction lexemes generalizing reader modes with
  | nil =>
      cases h
      rfl
  | cons lexeme lexemes ih =>
      rw [run?_cons] at h
      obtain ⟨middle, hstep, hrun⟩ := Option.bind_eq_some_iff.mp h
      rw [List.foldl_cons, ih hrun]
      cases lexeme with
      | repetition low high greedy =>
          obtain ⟨current, -, rfl⟩ := Option.map_eq_some_iff.mp hstep
          rfl
      | flags changes =>
          cases hstep
          simp [Lexeme.Modes.after]
      | openGroup kind =>
          cases hstep
          cases kind <;> rfl
      | closeGroup =>
          obtain ⟨current, enclosing⟩ := reader
          cases enclosing with
          | nil => cases hstep
          | cons group enclosing =>
              cases hstep
              simp [Lexeme.Modes.after]
      | _ =>
          cases hstep
          rfl

theorem run?_within {lexemes : List Lexeme} (h : reader.run? lexemes = some after) :
    (reader.within outer).run? lexemes = some (after.within outer) := by
  induction lexemes generalizing reader with
  | nil =>
      cases h
      rfl
  | cons lexeme lexemes ih =>
      rw [run?_cons] at h
      obtain ⟨middle, hstep, hrun⟩ := Option.bind_eq_some_iff.mp h
      rw [run?_cons, step?_within hstep]
      exact ih hrun

end Reader

theorem tail_modes {lexemes : List Lexeme} {expression : Expression}
    (h : ofLexemes? lexemes = some expression) (modes : Lexeme.Modes) :
    (lexemes.foldl Lexeme.Modes.after modes).tail = modes.tail := by
  obtain ⟨reader, hrun, hfinish⟩ := Option.bind_eq_some_iff.mp h
  unfold Reader.finish? at hfinish
  split at hfinish
  · next hclosed =>
      have hdrop := Reader.drop_modes hrun modes
      rwa [List.isEmpty_iff.mp hclosed, List.length_nil, List.drop_one, List.drop_one] at hdrop
  · cases hfinish

theorem run?_group {kind : GroupKind} {lexemes : List Lexeme} {expression : Expression}
    (h : ofLexemes? lexemes = some expression) (level : Level) (outer : List (GroupKind × Level))
    (others : List Lexeme) :
    Reader.run? ⟨level, outer⟩ (.openGroup kind :: (lexemes ++ .closeGroup :: others)) =
      Reader.run? ⟨level.add (.group kind expression), outer⟩ others := by
  obtain ⟨⟨current, enclosing⟩, hrun, hfinish⟩ := Option.bind_eq_some_iff.mp h
  unfold Reader.finish? at hfinish
  split at hfinish
  · next hclosed =>
      cases hfinish
      obtain rfl := List.isEmpty_iff.mp hclosed
      have hinside : Reader.run? ⟨{}, (kind, level) :: outer⟩ lexemes =
          some ⟨current, (kind, level) :: outer⟩ := Reader.run?_within hrun
      calc Reader.run? ⟨level, outer⟩ (.openGroup kind :: (lexemes ++ .closeGroup :: others))
          _ = Reader.run? ⟨{}, (kind, level) :: outer⟩ (lexemes ++ .closeGroup :: others) := by
              rw [Reader.run?_cons]
              rfl
          _ = Reader.run? ⟨current, (kind, level) :: outer⟩ (.closeGroup :: others) := by
              rw [Reader.run?_append, hinside, Option.bind_some]
          _ = Reader.run? ⟨level.add (.group kind current.finish), outer⟩ others := by
              rw [Reader.run?_cons]
              rfl
  · cases hfinish

def Level.names (level : Level) : List String :=
  (level.branches ++ level.items).flatMap Expression.names

def Reader.names (reader : Reader) : List String :=
  reader.current.names ++ reader.enclosing.flatMap fun group => group.1.names ++ group.2.names

theorem names_group (kind : GroupKind) (body : Expression) :
    (group kind body).names = kind.names ++ body.names := by
  cases kind <;> simp [names, GroupKind.names]

theorem names_ofItems (items : List Expression) :
    (ofItems items).names = items.flatMap names := by
  induction items with
  | nil => rfl
  | cons item items ih =>
      cases items with
      | nil => simp [ofItems]
      | cons next items => simpa [ofItems, names] using ih

theorem names_ofBranches (branches : List Expression) :
    (ofBranches branches).names = branches.flatMap names := by
  induction branches with
  | nil => rfl
  | cons branch branches ih =>
      cases branches with
      | nil => simp [ofBranches]
      | cons next branches => simpa [ofBranches, names] using ih

namespace Level

variable {level after : Level}

theorem names_add (item : Expression) :
    (level.add item).names.Perm (level.names ++ item.names) := by
  simp only [names, add, List.flatMap_append, List.flatMap_cons, List.append_assoc]
  exact List.perm_append_comm.append_left _

theorem names_bar : level.bar.names.Perm level.names := by
  simp only [names, bar, branch, List.append_nil, List.flatMap_cons, names_ofItems,
    List.flatMap_append]
  exact (((List.reverse_perm level.items).flatMap_right _).append_right _).trans
    List.perm_append_comm

theorem names_finish : level.finish.names.Perm level.names := by
  rw [finish, names_ofBranches]
  refine ((List.reverse_perm _).flatMap_right _).trans ?_
  have hbar : (level.branch :: level.branches).flatMap Expression.names = level.bar.names := by
    rw [names, bar, List.append_nil]
  rw [hbar]
  exact names_bar

theorem names_repeat? {low : Nat} {high : Option Nat} {greedy : Bool}
    (h : level.repeat? low high greedy = some after) : after.names = level.names := by
  unfold repeat? at h
  split at h
  · cases h
  · next item items hitems =>
      split at h
      · cases h
      · cases h
        simp [names, hitems, Expression.names]

end Level

theorem Reader.names_step? {reader after : Reader} {lexeme : Lexeme}
    (h : reader.step? lexeme = some after) : after.names.Perm (reader.names ++ lexeme.names) := by
  have hadd (item : Expression) :
      ((reader.current.add item).names ++ reader.enclosing.flatMap fun group =>
        group.1.names ++ group.2.names).Perm (reader.names ++ item.names) := by
    refine ((Level.names_add item).append_right _).trans ?_
    rw [Reader.names, List.append_assoc, List.append_assoc]
    exact List.perm_append_comm.append_left _
  cases lexeme with
  | atom item =>
      cases h
      exact hadd item
  | flags changes =>
      cases h
      exact hadd (.flags changes)
  | repetition low high greedy =>
      obtain ⟨current, hcurrent, rfl⟩ := Option.map_eq_some_iff.mp h
      simp [Reader.names, Level.names_repeat? hcurrent, Lexeme.names]
  | bar =>
      cases h
      refine (Level.names_bar.append_right _).trans ?_
      exact .of_eq (List.append_nil _).symm
  | openGroup kind =>
      cases h
      have hempty : Level.names {} = [] := rfl
      simp only [Reader.names, Lexeme.names, List.flatMap_cons, hempty, List.nil_append,
        List.append_assoc]
      exact List.perm_append_comm.trans (.of_eq (List.append_assoc _ _ _))
  | closeGroup =>
      obtain ⟨current, enclosing⟩ := reader
      cases enclosing with
      | nil => cases h
      | cons group enclosing =>
          obtain ⟨kind, outer⟩ := group
          cases h
          have hadd : (outer.add (.group kind current.finish)).names.Perm _ := Level.names_add _
          have hfinish : current.finish.names.Perm current.names := Level.names_finish
          refine List.perm_iff_count.mpr fun name => ?_
          have hcount := hadd.count_eq name
          have hinner := hfinish.count_eq name
          simp only [names_group, List.count_append] at hcount
          simp only [Reader.names, Lexeme.names, List.flatMap_cons, List.append_nil,
            List.count_append]
          omega

theorem Reader.names_run? {reader after : Reader} {lexemes : List Lexeme}
    (h : reader.run? lexemes = some after) :
    after.names.Perm (reader.names ++ lexemes.flatMap Lexeme.names) := by
  induction lexemes generalizing reader with
  | nil =>
      cases h
      rw [List.flatMap_nil, List.append_nil]
  | cons lexeme lexemes ih =>
      rw [run?_cons] at h
      obtain ⟨middle, hstep, hrun⟩ := Option.bind_eq_some_iff.mp h
      rw [List.flatMap_cons, ← List.append_assoc]
      exact (ih hrun).trans ((names_step? hstep).append_right _)

theorem names_ofLexemes? {lexemes : List Lexeme} {expression : Expression}
    (h : ofLexemes? lexemes = some expression) :
    expression.names.Perm (lexemes.flatMap Lexeme.names) := by
  obtain ⟨reader, hrun, hfinish⟩ := Option.bind_eq_some_iff.mp h
  unfold Reader.finish? at hfinish
  split at hfinish
  · next hclosed =>
      cases hfinish
      have hnames : reader.names = reader.current.names := by
        rw [Reader.names, List.isEmpty_iff.mp hclosed, List.flatMap_nil, List.append_nil]
      have hperm := Reader.names_run? hrun
      rw [hnames] at hperm
      exact Level.names_finish.trans hperm
  · cases hfinish

section

variable [UnicodeClasses] {source : List Char} {expression : Expression}

theorem lexemes_of_read? (h : read? source = some expression) :
    ∃ lexemes, Lexeme.readAll [] source = some lexemes ∧ ofLexemes? lexemes = some expression ∧
      expression.names.Nodup := by
  obtain ⟨lexemes, hlexemes, h⟩ := Option.bind_eq_some_iff.mp h
  obtain ⟨other, hother, h⟩ := Option.bind_eq_some_iff.mp h
  split at h
  · next hvalid =>
      cases h
      exact ⟨lexemes, hlexemes, hother, hvalid.1⟩
  · cases h

theorem isGroupName_of_read? (h : read? source = some expression) {name : String}
    (hname : name ∈ expression.names) : Lexeme.IsGroupName name := by
  obtain ⟨lexemes, hlexemes, hexpression, -⟩ := lexemes_of_read? h
  obtain ⟨lexeme, hmem, hname⟩ :=
    List.mem_flatMap.mp ((names_ofLexemes? hexpression).mem_iff.mp hname)
  exact (Lexeme.isWritten_of_mem_readAll hlexemes hmem).isGroupName hname

end

section

variable {greedy : Bool} {body : Pattern} {group : String}

theorem mem_groups_of_zeroOrMore (h : group ∈ (Pattern.zeroOrMore greedy body).groups) :
    group ∈ body.groups := by
  unfold Pattern.zeroOrMore at h
  split at h <;> exact h

theorem mem_groups_of_exactly {count : Nat} (h : group ∈ (Pattern.exactly body count).groups) :
    group ∈ body.groups := by
  unfold Pattern.exactly at h
  split at h
  · cases h
  · exact h
  · exact h

theorem mem_groups_of_atLeast {count : Nat}
    (h : group ∈ (Pattern.atLeast greedy body count).groups) : group ∈ body.groups := by
  unfold Pattern.atLeast at h
  split at h
  · exact mem_groups_of_zeroOrMore h
  · exact h
  · exact (List.mem_append.mp h).elim mem_groups_of_exactly id

theorem mem_groups_of_between {low high : Nat}
    (h : group ∈ (Pattern.between greedy body low high).groups) : group ∈ body.groups := by
  unfold Pattern.between at h
  split at h
  · exact mem_groups_of_exactly h
  · split at h
    · exact h
    · exact (List.mem_append.mp h).elim mem_groups_of_exactly id

theorem mem_groups_of_repeated {low : Nat} {high : Option Nat}
    (h : group ∈ (Pattern.repeated greedy body low high).groups) : group ∈ body.groups := by
  unfold Pattern.repeated at h
  split at h
  · exact mem_groups_of_between h
  · split at h
    · exact mem_groups_of_atLeast h
    · exact mem_groups_of_between h

theorem mem_names_of_mem_groups {expression : Expression} {flags : Flags}
    (h : group ∈ (expression.lower flags).2.groups) : group ∈ expression.names := by
  induction expression generalizing flags with
  | group kind inner ih =>
      rw [names_group]
      cases kind with
      | named name =>
          rcases List.mem_append.mp h with h | h
          · exact List.mem_append_left _ h
          · rcases List.mem_append.mp h with h | h
            · exact List.mem_append_right _ (ih h)
            · cases h
      | _ => exact ih h
  | repeated low high greedy inner ih => exact ih (mem_groups_of_repeated h)
  | seq first second ihFirst ihSecond | alt first second ihFirst ihSecond =>
      rcases List.mem_append.mp h with h | h
      · exact List.mem_append_left _ (ihFirst h)
      · exact List.mem_append_right _ (ihSecond h)
  | _ => cases h

end

end Expression

end DocMarkup
