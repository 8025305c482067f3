import DocMarkup.Proofs.Pattern.Lockstep

/-!
Alternatives in groups of their own.

A pattern that stands in a group behind others that fail finds what it finds on its own: its
parts have other labels there, and the end of the group is left to pass behind it.
-/

namespace DocMarkup

namespace Pattern

theorem Label.ext_turns {first second : Label} (h : first.turns = second.turns) :
    first = second := by
  obtain ⟨key, turns, hkey⟩ := first
  obtain ⟨key', turns', hkey'⟩ := second
  cases h
  cases hkey
  cases hkey'
  rfl

def Label.under (base label : Label) : Label :=
  ⟨keyOf (label.turns ++ base.turns), label.turns ++ base.turns, rfl⟩

theorem Label.under_inj {base first second : Label} :
    base.under first = base.under second ↔ first = second := by
  refine ⟨fun h => Label.ext_turns ?_, fun h => by rw [h]⟩
  exact List.append_cancel_right (congrArg Label.turns h)

@[simp] theorem Label.under_whole (base : Label) : base.under .whole = base :=
  Label.ext_turns (List.nil_append base.turns)

theorem inner_under (base label : Label) (turn : Nat) :
    inner (base.under label) turn = base.under (inner label turn) :=
  Label.ext_turns rfl

/-- What is left to do when all of it has the label `base` and `last` comes after it. -/
def placed (base : Label) (last : Part) (todo : Todo) : Todo :=
  todo.map (fun part => ⟨base.under part.label, part.pattern⟩) ++ [last]

section

variable {base : Label} {last : Part} {todo rest : Todo} {here : Surroundings}

theorem placed_inj {other : Todo} : placed base last todo = placed base last other ↔
    todo = other := by
  refine ⟨fun h => ?_, fun h => by rw [h]⟩
  refine (List.map_inj_right fun first second hparts => ?_).mp (List.append_cancel_right h)
  obtain ⟨label, pattern⟩ := first
  obtain ⟨label', pattern'⟩ := second
  simp only [Part.mk.injEq, Label.under_inj] at hparts
  rw [hparts.1, hparts.2]

theorem placed_ne_nil : placed base last todo ≠ [] := by
  simp [placed]

theorem getLast?_placed : (placed base last todo).getLast? = some last := by
  simp [placed]

def Move.placed (base : Label) (last : Part) : Move → Move
  | .finish => .finish
  | .take set rest => .take set (Pattern.placed base last rest)
  | .go branches => .go (branches.map fun branch => (branch.1, Pattern.placed base last branch.2))

theorem moveFrom_placed (label : Label) (rest : Todo) (pattern : Pattern) :
    moveFrom here (base.under label) (placed base last rest) pattern =
      (moveFrom here label rest pattern).placed base last := by
  cases pattern with
  | times count body => cases count <;> simp [moveFrom, Move.placed, placed, inner_under]
  | upTo greedy count body =>
      cases count <;> cases greedy <;> simp [moveFrom, Move.placed, placed, inner_under, inOrder]
  | loop greedy body => cases greedy <;> simp [moveFrom, Move.placed, placed, inner_under, inOrder]
  | assertion claim =>
      simp only [moveFrom, Move.placed]
      split <;> simp
  | _ => simp [moveFrom, Move.placed, placed, inner_under]

theorem move_placed (htodo : todo ≠ []) :
    move here (placed base last todo) = (move here todo).placed base last := by
  cases todo with
  | nil => exact absurd rfl htodo
  | cons part rest => exact moveFrom_placed part.label rest part.pattern

end

variable {subject : Subject} {offset : Nat} {base : Label} {last : Part} {path : List Todo}
  {todo : Todo} {position : Nat}

theorem getElem?_behind (subject : Subject) (offset position : Nat) :
    (subject.behind offset).text[position]? = subject.text[offset + position]? :=
  List.getElem?_drop

theorem move_behind (base : Label) (last : Part) (htodo : todo ≠ []) {before : Move}
    (hmove : move ((subject.behind offset).around position) todo = before) :
    move (subject.around (offset + position)) (placed base last todo) =
      before.placed base last := by
  rw [← Subject.around_behind, move_placed htodo, hmove]

theorem Fails.placed (h : Fails (subject.behind offset) path todo position) (base : Label)
    (last : Part) (outer : List Todo) :
    Fails subject (path.map (Pattern.placed base last) ++ outer) (Pattern.placed base last todo)
      (offset + position) := by
  induction h generalizing outer with
  | again hmem => exact .again (List.mem_append_left _ (List.mem_map_of_mem hmem))
  | @take path todo rest position set hmove _ ih =>
      have htodo : todo ≠ [] := by
        rintro rfl
        cases hmove
      refine .take (move_behind base _ htodo hmove) fun char hchar hset => ?_
      rw [← getElem?_behind] at hchar
      exact ih char hchar hset []
  | @go path todo position branches hmove _ ih =>
      have htodo : todo ≠ [] := by
        rintro rfl
        cases hmove
      refine .go (move_behind base _ htodo hmove) fun branch hmem => ?_
      obtain ⟨inside, hinside, rfl⟩ := List.mem_map.mp hmem
      exact ih inside hinside outer

/-- Nothing on the path is at the same place. -/
def Apart (last : Part) (outer : List Todo) : Prop :=
  ∀ met ∈ outer, met ≠ [] ∧ met.getLast? ≠ some last

theorem Apart.placed_not_mem {outer : List Todo} (h : Apart last outer) :
    Pattern.placed base last todo ∉ outer :=
  fun hmem => (h _ hmem).2 getLast?_placed

theorem not_mem_placed {outer : List Todo} (h : Apart last outer) (hnew : todo ∉ path) :
    Pattern.placed base last todo ∉ path.map (Pattern.placed base last) ++ outer := by
  intro hmem
  rcases List.mem_append.mp hmem with hmem | hmem
  · obtain ⟨other, hmem, heq⟩ := List.mem_map.mp hmem
    exact hnew (placed_inj.mp heq ▸ hmem)
  · exact h.placed_not_mem hmem

def Trace.placed (offset : Nat) (passed : List (Mark × Nat)) (trace : Trace) : Trace :=
  ⟨offset + trace.origin, trace.marks ++ passed⟩

theorem Trace.follow_placed {passed : List (Mark × Nat)} {trace : Trace} {passing : Option Mark} :
    (trace.placed offset passed).follow passing (offset + position) =
      (trace.follow passing position).placed offset passed := by
  cases passing with
  | none => rfl
  | some passing => simp [Trace.follow, Trace.pass, Trace.placed, Nat.add_sub_add_left]

/-- The match of a group, given that of its body on its own. -/
def Match.inGroup (offset : Nat) (name : String) (found : Match) : Match :=
  ⟨offset + found.start, found.length,
    (.stop name, found.length) :: (found.marks ++ [(.start name, 0)])⟩

theorem Finds.placed {label : Label} {name : String} {trace : Trace} {found : Match}
    (h : Finds (subject.behind offset) path todo position trace found) (base : Label)
    {outer : List Todo} (houter : Apart ⟨label, mark (.stop name)⟩ outer) :
    Finds subject (path.map (Pattern.placed base ⟨label, mark (.stop name)⟩) ++ outer)
      (Pattern.placed base ⟨label, mark (.stop name)⟩ todo) (offset + position)
      (trace.placed offset [(.start name, 0)]) (found.inGroup offset name) := by
  induction h generalizing outer with
  | @finish path position trace hnew =>
      -- Where the pattern on its own is done, the mark for the end of the group is left.
      have hstop : ((trace.placed offset [(.start name, 0)]).follow (some (.stop name))
          (offset + position)).finish (offset + position) =
          (trace.finish position).inGroup offset name := by
        simp [Trace.finish, Match.inGroup, Trace.placed, Trace.follow, Trace.pass,
          Nat.add_sub_add_left]
      have hmove : move (subject.around (offset + position))
          (Pattern.placed base ⟨label, mark (.stop name)⟩ []) =
          .go ([] ++ (some (.stop name), []) :: []) := rfl
      rw [← hstop]
      refine .go (not_mem_placed houter hnew) hmove (fun _ hmem => (nomatch hmem)) (.finish ?_)
      rintro (_ | ⟨_, hmem⟩)
      rcases List.mem_append.mp hmem with hmem | hmem
      · obtain ⟨other, -, hnil⟩ := List.mem_map.mp hmem
        exact placed_ne_nil hnil
      · exact (houter _ hmem).1 rfl
  | @take path todo rest position set char trace found hnew hmove hchar hset _ ih =>
      have htodo : todo ≠ [] := by
        rintro rfl
        cases hmove
      rw [getElem?_behind] at hchar
      exact .take (not_mem_placed houter hnew) (move_behind base _ htodo hmove) hchar hset
        (ih fun _ hmem => (nomatch hmem))
  | @go path todo next position before after passing trace found hnew hmove hbefore _ ih =>
      have htodo : todo ≠ [] := by
        rintro rfl
        cases hmove
      have hplaced := move_behind base ⟨label, mark (.stop name)⟩ htodo hmove
      simp only [Move.placed, List.map_append, List.map_cons] at hplaced
      refine .go (not_mem_placed houter hnew) hplaced (fun branch hmem => ?_) ?_
      · obtain ⟨inside, hinside, rfl⟩ := List.mem_map.mp hmem
        exact (hbefore inside hinside).placed base _ outer
      · rw [Trace.follow_placed]
        exact ih houter

theorem Match.lookup_inGroup (found : Match) (offset : Nat) (name : String) (passing : Mark) :
    (found.inGroup offset name).marks.lookup passing =
      if passing = .stop name then some found.length
      else (found.marks.lookup passing).or (if passing = .start name then some 0 else none) := by
  by_cases hstop : passing = .stop name
  · simp [Match.inGroup, hstop]
  · by_cases hstart : passing = .start name
    · have hne : (Mark.start name == Mark.stop name) = false := beq_eq_false_iff_ne.mpr (by simp)
      simp [Match.inGroup, List.lookup_cons, List.lookup_append, hstart, hne]
    · have hne : (passing == .stop name) = false := beq_eq_false_iff_ne.mpr hstop
      have hne' : (passing == .start name) = false := beq_eq_false_iff_ne.mpr hstart
      simp [Match.inGroup, List.lookup_cons, List.lookup_append, hstop, hstart, hne, hne']

theorem Match.span?_inGroup_self (found : Match) (offset : Nat) (name : String) :
    ((found.inGroup offset name).span? name).isSome = true := by
  simp [Match.span?, Match.lookup_inGroup]

theorem Match.span?_inGroup_of_ne {group name : String} (h : group ≠ name) (found : Match)
    (offset : Nat) : (found.inGroup offset name).span? group = found.span? group := by
  simp [Match.span?, Match.lookup_inGroup, h]

/-- Patterns in groups with these names, the first one preferred. -/
def alternation : List (String × Pattern) → Pattern
  | [] => empty
  | [(name, body)] => group name body
  | (name, body) :: rest => alt (group name body) (alternation rest)

theorem alternation_cons {rest : List (String × Pattern)} (name : String) (body : Pattern)
    (hrest : rest ≠ []) :
    alternation ((name, body) :: rest) = alt (group name body) (alternation rest) := by
  cases rest with
  | nil => exact absurd rfl hrest
  | cons => rfl

/-- The path came by alternations that the label lies in. -/
def Inside (label : Label) (path : List Todo) : Prop :=
  ∀ met ∈ path, ∃ outer first second,
    met = [⟨outer, alt first second⟩] ∧ outer.turns.length < label.turns.length

theorem Inside.step {label : Label} {path : List Todo} {first second : Pattern} {turn : Nat}
    (h : Inside label path) : Inside (inner label turn) ([⟨label, alt first second⟩] :: path) := by
  intro met hmem
  cases hmem with
  | head => exact ⟨label, first, second, rfl, Nat.lt_succ_self _⟩
  | tail _ hmem =>
      obtain ⟨outer, first, second, hmet, hlt⟩ := h met hmem
      exact ⟨outer, first, second, hmet, Nat.lt_succ_of_lt hlt⟩

theorem Inside.not_mem {label : Label} {path : List Todo} (h : Inside label path) {todo : Todo}
    (htodo : ∀ outer first second, todo ≠ [⟨outer, alt first second⟩]) : todo ∉ path := by
  intro hmem
  obtain ⟨outer, first, second, hmet, -⟩ := h todo hmem
  exact htodo outer first second hmet

theorem Inside.alt_not_mem {label : Label} {path : List Todo} (h : Inside label path)
    (first second : Pattern) : ([⟨label, alt first second⟩] : Todo) ∉ path := by
  intro hmem
  obtain ⟨outer, first', second', hmet, hlt⟩ := h _ hmem
  simp only [List.cons.injEq, Part.mk.injEq] at hmet
  rw [hmet.1.1] at hlt
  exact absurd hlt (Nat.lt_irrefl _)

theorem fails_group {label : Label} {name : String} {body : Pattern}
    (h : Fails (subject.behind offset) [] [⟨.whole, body⟩] 0) :
    Fails subject path [⟨label, group name body⟩] offset := by
  have hbody := h.placed (inner (inner label 2) 1)
    ⟨inner (inner label 2) 2, mark (.stop name)⟩
  simp only [Pattern.placed, List.map_cons, List.map_nil, Label.under_whole] at hbody
  exact .only rfl (.only rfl (.only rfl (hbody _)))

theorem finds_group {label : Label} {name : String} {body : Pattern} {found : Match}
    (h : Finds (subject.behind offset) [] [⟨.whole, body⟩] 0 ⟨0, []⟩ found)
    (hpath : Inside label path) :
    Finds subject path [⟨label, group name body⟩] offset ⟨offset, []⟩
      (found.inGroup offset name) := by
  have hlabel : label ≠ inner label 2 := fun h => by
    simpa [inner] using congrArg (List.length ∘ Label.turns) h
  have hfirst : ([⟨label, group name body⟩] : Todo) ∉ path :=
    hpath.not_mem (by simp [group])
  have hsecond : ([⟨inner label 1, mark (.start name)⟩,
      ⟨inner label 2, seq body (mark (.stop name))⟩] : Todo) ∉
      [⟨label, group name body⟩] :: path :=
    List.not_mem_cons_of_ne_of_not_mem (by simp) (hpath.not_mem (by simp))
  have hthird : ([⟨inner label 2, seq body (mark (.stop name))⟩] : Todo) ∉
      [⟨inner label 1, mark (.start name)⟩, ⟨inner label 2, seq body (mark (.stop name))⟩] ::
        [⟨label, group name body⟩] :: path := by
    refine List.not_mem_cons_of_ne_of_not_mem (by simp)
      (List.not_mem_cons_of_ne_of_not_mem (fun h => ?_) (hpath.not_mem (by simp)))
    simp only [List.cons.injEq, Part.mk.injEq] at h
    exact hlabel h.1.1.symm
  have hapart : Apart ⟨inner (inner label 2) 2, mark (.stop name)⟩
      ([⟨inner label 2, seq body (mark (.stop name))⟩] ::
        [⟨inner label 1, mark (.start name)⟩, ⟨inner label 2, seq body (mark (.stop name))⟩] ::
        [⟨label, group name body⟩] :: path) := by
    intro met hmem
    simp only [List.mem_cons] at hmem
    rcases hmem with rfl | rfl | rfl | hmem
    · simp
    · simp
    · simp [group]
    · obtain ⟨outer, first, second, rfl, -⟩ := hpath met hmem
      simp
  have hbody := h.placed (inner (inner label 2) 1) hapart
  simp only [Pattern.placed, List.map_cons, List.map_nil, Label.under_whole] at hbody
  refine .only hfirst rfl (.only hsecond rfl (.only hthird rfl ?_))
  simpa [Trace.follow, Trace.pass, Trace.placed] using hbody

theorem fails_alternation {alternatives : List (String × Pattern)} {label : Label}
    (hne : alternatives ≠ [])
    (h : ∀ entry ∈ alternatives, Fails (subject.behind offset) [] [⟨.whole, entry.2⟩] 0) :
    Fails subject path [⟨label, alternation alternatives⟩] offset := by
  induction alternatives generalizing label path with
  | nil => exact absurd rfl hne
  | cons entry rest ih =>
      obtain ⟨name, body⟩ := entry
      have hfirst := h (name, body) List.mem_cons_self
      cases rest with
      | nil => exact fails_group hfirst
      | cons next rest =>
          exact .alt (fails_group hfirst)
            (ih (List.cons_ne_nil _ _) fun entry hmem => h entry (List.mem_cons_of_mem _ hmem))

theorem finds_alternation {before after : List (String × Pattern)} {name : String}
    {body : Pattern} {found : Match} {label : Label}
    (hbefore : ∀ entry ∈ before, Fails (subject.behind offset) [] [⟨.whole, entry.2⟩] 0)
    (h : Finds (subject.behind offset) [] [⟨.whole, body⟩] 0 ⟨0, []⟩ found)
    (hpath : Inside label path) :
    Finds subject path [⟨label, alternation (before ++ (name, body) :: after)⟩] offset
      ⟨offset, []⟩ (found.inGroup offset name) := by
  induction before generalizing label path with
  | nil =>
      cases after with
      | nil => exact finds_group h hpath
      | cons next after =>
          rw [List.nil_append, alternation_cons name body (List.cons_ne_nil _ _)]
          exact .altFirst (hpath.alt_not_mem _ _) (finds_group h hpath.step)
  | cons entry before ih =>
      obtain ⟨other, otherBody⟩ := entry
      have hother : Fails (subject.behind offset) [] [⟨.whole, otherBody⟩] 0 :=
        hbefore (other, otherBody) List.mem_cons_self
      rw [List.cons_append, alternation_cons other otherBody (by simp)]
      exact .altSecond (hpath.alt_not_mem _ _) (fails_group hother)
        (ih (fun entry hmem => hbefore entry (List.mem_cons_of_mem _ hmem)) hpath.step)

end Pattern

end DocMarkup
