import DocMarkup.Proofs.Comment.Grammar
import DocMarkup.Proofs.Pattern.Takes

/-!
Patterns that are made of runs.

A run takes one character of a set, or as many as there are, and it may be a group. A text is read
by a sequence of runs if it is one text of each of them after the other, and each group has the text
of its run.
-/

namespace DocMarkup

namespace Comment

open Pattern (oneOf oneOrMore loop group Takes Passed)

inductive Amount
  | one
  | some
  | any
  deriving DecidableEq, Repr

def Amount.Allows : Amount → List Char → Prop
  | one, chars => chars.length = 1
  | some, chars => chars ≠ []
  | any, _ => True

structure Run where
  set : CharSet
  amount : Amount
  group? : Option String
  deriving DecidableEq, Repr

namespace Run

def body (run : Run) : Pattern :=
  match run.amount with
  | .one => oneOf run.set
  | .some => oneOrMore true (oneOf run.set)
  | .any => loop true (oneOf run.set)

def pattern (run : Run) : Pattern :=
  match run.group? with
  | none => run.body
  | some name => group name run.body

def marks (run : Run) : List Mark :=
  match run.group? with
  | none => []
  | some name => [.start name, .stop name]

def values (run : Run) (chars : List Char) : List (String × String) :=
  match run.group? with
  | none => []
  | some name => [(name, String.ofList chars)]

def sign (char : Char) : Run :=
  ⟨.single char, .one, none⟩

def signs (char : Char) : Run :=
  ⟨.single char, .some, none⟩

def blanks : Run :=
  ⟨.blank, .any, none⟩

def someBlanks : Run :=
  ⟨.blank, .some, none⟩

def word (group : String) : Run :=
  ⟨wordChar, .some, some group⟩

def dashedWord (group : String) : Run :=
  ⟨dashedWordChar, .some, some group⟩

def lineRest (group : String) : Run :=
  ⟨.complement (.single '\n'), .any, some group⟩

structure Admits (run : Run) (chars : List Char) : Prop where
  contains : ∀ char ∈ chars, run.set.contains char = true
  allows : run.amount.Allows chars

end Run

/-- The text is one of each run, and the values are the texts of the groups. -/
inductive Reading : List Run → List Char → List (String × String) → Prop
  | nil : Reading [] [] []
  | cons {run : Run} {runs : List Run} {chars rest : List Char}
      {later : List (String × String)} (hrun : run.Admits chars)
      (hrest : Reading runs rest later) :
      Reading (run :: runs) (chars ++ rest) (run.values chars ++ later)

/-- The characters of the text from `start` to `stop`. -/
structure Spans (text : List Char) (start stop : Nat) (chars : List Char) : Prop where
  drop_eq : text.drop start = chars ++ text.drop stop
  stop_eq : stop = start + chars.length

section

variable {text first second chars : List Char} {start middle stop : Nat}

theorem Spans.nil (text : List Char) (position : Nat) : Spans text position position [] :=
  ⟨rfl, rfl⟩

theorem Spans.append (hfirst : Spans text start middle first)
    (hsecond : Spans text middle stop second) : Spans text start stop (first ++ second) where
  drop_eq := by rw [hfirst.drop_eq, hsecond.drop_eq, List.append_assoc]
  stop_eq := by rw [hsecond.stop_eq, hfirst.stop_eq, List.length_append, Nat.add_assoc]

theorem Spans.eq_take (h : Spans text start stop chars) :
    chars = (text.take stop).drop start := by
  rw [List.drop_take, h.drop_eq, h.stop_eq, Nat.add_sub_cancel_left, List.take_left]

theorem Spans.eq_take_take (h : Spans text start stop chars) {last : Nat} (hlast : stop ≤ last) :
    chars = ((text.take last).take stop).drop start := by
  rw [List.take_take, Nat.min_eq_left hlast]
  exact h.eq_take

end

section

variable {subject : Subject} {set : CharSet} {run : Run} {start stop : Nat} {passed : Passed}

theorem spans_of_takes_oneOf (h : Takes subject (oneOf set) start stop passed) :
    passed = [] ∧ ∃ char, set.contains char = true ∧ Spans subject.text start stop [char] := by
  cases h with
  | @oneOf _ _ char hchar hset =>
      obtain ⟨hlt, heq⟩ := List.getElem?_eq_some_iff.mp hchar
      refine ⟨rfl, char, hset, ?_, rfl⟩
      rw [List.drop_eq_getElem_cons hlt, heq, List.singleton_append]

theorem spans_of_takes_loop {greedy : Bool}
    (h : Takes subject (loop greedy (oneOf set)) start stop passed) :
    passed = [] ∧ ∃ chars, (∀ char ∈ chars, set.contains char = true) ∧
      Spans subject.text start stop chars := by
  generalize hpattern : loop greedy (oneOf set) = pattern at h
  induction h with
  | loopEnd => exact ⟨rfl, [], List.forall_mem_nil _, Spans.nil _ _⟩
  | loopRound hround _ _ ih =>
      cases hpattern
      obtain ⟨rfl, char, hset, hspans⟩ := spans_of_takes_oneOf hround
      obtain ⟨rfl, chars, hchars, hrest⟩ := ih rfl
      exact ⟨rfl, char :: chars, List.forall_mem_cons.mpr ⟨hset, hchars⟩, hspans.append hrest⟩
  | _ => cases hpattern

end

theorem eq_replicate_of_admits {char : Char} {amount : Amount} {chars : List Char}
    (h : (Run.mk (.single char) amount none).Admits chars) :
    chars = List.replicate chars.length char := by
  apply List.eq_replicate_of_mem
  intro other hmem
  have hcontains := h.contains other hmem
  rwa [CharSet.contains_single, beq_iff_eq] at hcontains

section

variable {runs : List Run} {chars : List Char} {values : List (String × String)}

theorem reading_nil_iff : Reading [] chars values ↔ chars = [] ∧ values = [] := by
  constructor
  · intro h
    cases h
    exact ⟨rfl, rfl⟩
  · intro ⟨hchars, hvalues⟩
    rw [hchars, hvalues]
    exact .nil

theorem reading_cons_iff {run : Run} :
    Reading (run :: runs) chars values ↔
      ∃ first, run.Admits first ∧ ∃ rest, chars = first ++ rest ∧
        ∃ later, values = run.values first ++ later ∧ Reading runs rest later := by
  constructor
  · intro h
    cases h with
    | cons hrun hrest => exact ⟨_, hrun, _, rfl, _, rfl, hrest⟩
  · intro ⟨first, hrun, rest, hchars, later, hvalues, hrest⟩
    rw [hchars, hvalues]
    exact .cons hrun hrest

theorem admits_sign_iff {char : Char} {chars : List Char} :
    (Run.sign char).Admits chars ↔ chars = [char] := by
  constructor
  · intro h
    have hone : chars.length = 1 := h.allows
    rw [eq_replicate_of_admits h, hone]
    rfl
  · intro h
    rw [h]
    exact ⟨List.forall_mem_singleton.mpr (by simp [Run.sign]), rfl⟩

theorem reading_sign_iff {char : Char} :
    Reading (Run.sign char :: runs) chars values ↔
      ∃ rest, chars = char :: rest ∧ Reading runs rest values := by
  rw [reading_cons_iff]
  simp only [admits_sign_iff, exists_eq_left, List.singleton_append]
  simp only [Run.sign, Run.values, List.nil_append, exists_eq_left']

theorem reading_repeated_iff {char : Char} :
    Reading (Run.signs char :: runs) chars values ↔
      ∃ count, 1 ≤ count ∧ ∃ rest, chars = List.replicate count char ++ rest ∧
        Reading runs rest values := by
  rw [reading_cons_iff]
  constructor
  · intro ⟨first, hfirst, rest, hchars, later, hvalues, hrest⟩
    have hne : first ≠ [] := hfirst.allows
    refine ⟨first.length, List.length_pos_iff.mpr hne, rest, ?_, ?_⟩
    · rwa [← eq_replicate_of_admits hfirst]
    · rwa [hvalues]
  · intro ⟨count, hcount, rest, hchars, hrest⟩
    refine ⟨List.replicate count char, ⟨?_, ?_⟩, rest, hchars, values, rfl, hrest⟩
    · intro other hmem
      rw [List.eq_of_mem_replicate hmem]
      simp [Run.signs]
    · exact List.ne_nil_of_length_pos (by rwa [List.length_replicate])

theorem reading_blanks_iff :
    Reading (Run.blanks :: runs) chars values ↔
      ∃ first, (∀ char ∈ first, Text.isBlank char = true) ∧
        ∃ rest, chars = first ++ rest ∧ Reading runs rest values := by
  have hadmits {first : List Char} :
      Run.blanks.Admits first ↔ ∀ char ∈ first, Text.isBlank char = true :=
    ⟨fun h => h.contains, fun h => ⟨h, trivial⟩⟩
  rw [reading_cons_iff]
  simp only [hadmits]
  simp only [Run.blanks, Run.values, List.nil_append, exists_eq_left']

theorem reading_group_iff {set : CharSet} {amount : Amount} {group : String} :
    Reading (⟨set, amount, some group⟩ :: runs) chars values ↔
      ∃ first : String, (Run.mk set amount (some group)).Admits first.toList ∧
        ∃ rest, chars = first.toList ++ rest ∧
          ∃ later, values = (group, first) :: later ∧ Reading runs rest later := by
  rw [reading_cons_iff]
  constructor
  · intro ⟨first, hfirst, rest, hchars, later, hvalues, hrest⟩
    refine ⟨String.ofList first, ?_, rest, ?_, later, hvalues, hrest⟩
    · rwa [String.toList_ofList]
    · rwa [String.toList_ofList]
  · intro ⟨first, hfirst, rest, hchars, later, hvalues, hrest⟩
    refine ⟨first.toList, hfirst, rest, hchars, later, ?_, hrest⟩
    rw [hvalues, Run.values, String.ofList_toList]
    rfl

theorem reading_signs_iff {signs : List Char} :
    Reading (signs.map Run.sign ++ runs) chars values ↔
      ∃ rest, chars = signs ++ rest ∧ Reading runs rest values := by
  induction signs generalizing chars with
  | nil => simp
  | cons char signs ih =>
      rw [List.map_cons, List.cons_append, reading_sign_iff]
      simp only [ih]
      constructor
      · intro ⟨_, hchars, rest, hrest, h⟩
        exact ⟨rest, by rw [hchars, hrest, List.cons_append], h⟩
      · intro ⟨rest, hchars, h⟩
        exact ⟨signs ++ rest, hchars, rest, rfl, h⟩

theorem reading_only_signs_iff {signs : List Char} :
    Reading (signs.map Run.sign) chars values ↔ chars = signs ∧ values = [] := by
  rw [← List.append_nil (signs.map _), reading_signs_iff]
  simp only [reading_nil_iff]
  constructor
  · intro ⟨_, hchars, hrest, hvalues⟩
    exact ⟨by rw [hchars, hrest, List.append_nil], hvalues⟩
  · intro ⟨hchars, hvalues⟩
    exact ⟨[], by rw [hchars, List.append_nil], rfl, hvalues⟩

end

end Comment

end DocMarkup
