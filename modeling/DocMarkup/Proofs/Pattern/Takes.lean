import DocMarkup.Pattern.Basic

/-!
What patterns take, said without the order in which ways to match are tried.

A pattern takes a stretch of a text if one way through it does, and on that way it passes
marks. Positions are counted in characters from the start of the text.
-/

namespace DocMarkup

/-- A text to be matched, with the character that stands before it. -/
structure Subject where
  before : Option Char
  text : List Char

namespace Subject

def around (subject : Subject) (position : Nat) : Surroundings where
  before := if position = 0 then subject.before else subject.text[position - 1]?
  after := subject.text[position]?

def behind (subject : Subject) (position : Nat) : Subject where
  before := (subject.around position).before
  text := subject.text.drop position

theorem around_behind (subject : Subject) (position distance : Nat) :
    (subject.behind position).around distance = subject.around (position + distance) := by
  cases distance with
  | zero => simp [behind, around]
  | succ distance => simp [behind, around, List.getElem?_drop, ← Nat.add_assoc]

theorem behind_behind (subject : Subject) (first second : Nat) :
    (subject.behind first).behind second = subject.behind (first + second) := by
  rw [behind, around_behind]
  simp [behind, List.drop_drop]

end Subject

namespace Pattern

/-- The marks that a way passes, in order, with the positions where it does. -/
abbrev Passed := List (Mark × Nat)

inductive Takes (subject : Subject) : Pattern → Nat → Nat → Passed → Prop
  | empty {position : Nat} : Takes subject empty position position []
  | oneOf {set : CharSet} {position : Nat} {char : Char}
      (hchar : subject.text[position]? = some char) (hset : set.contains char = true) :
      Takes subject (oneOf set) position (position + 1) []
  | assertion {claim : Assertion} {position : Nat}
      (hclaim : claim.holds (subject.around position) = true) :
      Takes subject (assertion claim) position position []
  | pass {passing : Mark} {position : Nat} :
      Takes subject (mark passing) position position [(passing, position)]
  | seq {first second : Pattern} {start middle stop : Nat} {passed later : Passed}
      (hfirst : Takes subject first start middle passed)
      (hsecond : Takes subject second middle stop later) :
      Takes subject (seq first second) start stop (passed ++ later)
  | altFirst {first second : Pattern} {start stop : Nat} {passed : Passed}
      (hfirst : Takes subject first start stop passed) :
      Takes subject (alt first second) start stop passed
  | altSecond {first second : Pattern} {start stop : Nat} {passed : Passed}
      (hsecond : Takes subject second start stop passed) :
      Takes subject (alt first second) start stop passed
  | timesZero {body : Pattern} {position : Nat} :
      Takes subject (times 0 body) position position []
  | timesSucc {body : Pattern} {count start middle stop : Nat} {passed later : Passed}
      (hround : Takes subject body start middle passed)
      (hrest : Takes subject (times count body) middle stop later) :
      Takes subject (times (count + 1) body) start stop (passed ++ later)
  | upToEnd {body : Pattern} {greedy : Bool} {count position : Nat} :
      Takes subject (upTo greedy count body) position position []
  | upToRound {body : Pattern} {greedy : Bool} {count start middle stop : Nat}
      {passed later : Passed} (hround : Takes subject body start middle passed)
      (hrest : Takes subject (upTo greedy count body) middle stop later) :
      Takes subject (upTo greedy (count + 1) body) start stop (passed ++ later)
  | loopEnd {body : Pattern} {greedy : Bool} {position : Nat} :
      Takes subject (loop greedy body) position position []
  | loopRound {body : Pattern} {greedy : Bool} {start middle stop : Nat} {passed later : Passed}
      (hround : Takes subject body start middle passed)
      (hrest : Takes subject (loop greedy body) middle stop later) :
      Takes subject (loop greedy body) start stop (passed ++ later)
  | oneOrMore {body : Pattern} {greedy : Bool} {start middle stop : Nat} {passed later : Passed}
      (hround : Takes subject body start middle passed)
      (hrest : Takes subject (loop greedy body) middle stop later) :
      Takes subject (oneOrMore greedy body) start stop (passed ++ later)

def sets : Pattern → List CharSet
  | oneOf set => [set]
  | seq first second => first.sets ++ second.sets
  | alt first second => first.sets ++ second.sets
  | times _ body => body.sets
  | upTo _ _ body => body.sets
  | loop _ body => body.sets
  | oneOrMore _ body => body.sets
  | _ => []

/-- Whether every way through a pattern takes a character from a set that passes the test. -/
def meets (test : CharSet → Bool) : Pattern → Bool
  | oneOf set => test set
  | seq first second => first.meets test || second.meets test
  | alt first second => first.meets test && second.meets test
  | times (_ + 1) body => body.meets test
  | oneOrMore _ body => body.meets test
  | _ => false

namespace Takes

variable {subject : Subject} {pattern : Pattern} {start stop : Nat} {passed : Passed}

theorem start_le_stop (h : Takes subject pattern start stop passed) : start ≤ stop := by
  induction h with
  | empty | assertion | pass | timesZero | upToEnd | loopEnd => exact Nat.le_refl _
  | oneOf => exact Nat.le_succ _
  | altFirst _ ih | altSecond _ ih => exact ih
  | seq _ _ ih₁ ih₂ | timesSucc _ _ ih₁ ih₂ | upToRound _ _ ih₁ ih₂ | loopRound _ _ ih₁ ih₂
  | oneOrMore _ _ ih₁ ih₂ => exact Nat.le_trans ih₁ ih₂

theorem exists_set {char : Char} {position : Nat}
    (h : Takes subject pattern start stop passed) (hstart : start ≤ position)
    (hstop : position < stop) (hchar : subject.text[position]? = some char) :
    ∃ set ∈ pattern.sets, set.contains char = true := by
  induction h with
  | empty | assertion | pass | timesZero | upToEnd | loopEnd => omega
  | @oneOf set only taken htaken hset =>
      have hposition : position = only := by omega
      rw [hposition, htaken] at hchar
      cases hchar
      exact ⟨set, List.mem_singleton_self set, hset⟩
  | altFirst _ ih =>
      obtain ⟨set, hmem, hset⟩ := ih hstart hstop
      exact ⟨set, List.mem_append_left _ hmem, hset⟩
  | altSecond _ ih =>
      obtain ⟨set, hmem, hset⟩ := ih hstart hstop
      exact ⟨set, List.mem_append_right _ hmem, hset⟩
  | @seq first second start middle stop _ _ _ _ ihFirst ihSecond =>
      rcases Nat.lt_or_ge position middle with hlt | hge
      · obtain ⟨set, hmem, hset⟩ := ihFirst hstart hlt
        exact ⟨set, List.mem_append_left _ hmem, hset⟩
      · obtain ⟨set, hmem, hset⟩ := ihSecond hge hstop
        exact ⟨set, List.mem_append_right _ hmem, hset⟩
  | @timesSucc _ _ _ middle _ _ _ _ _ ihRound ihRest
  | @upToRound _ _ _ _ middle _ _ _ _ _ ihRound ihRest
  | @loopRound _ _ _ middle _ _ _ _ _ ihRound ihRest
  | @oneOrMore _ _ _ middle _ _ _ _ _ ihRound ihRest =>
      rcases Nat.lt_or_ge position middle with hlt | hge
      · exact ihRound hstart hlt
      · exact ihRest hge hstop

theorem group_mem {group : String} {position : Nat}
    (h : Takes subject pattern start stop passed) (hmem : (.start group, position) ∈ passed) :
    group ∈ pattern.groups := by
  induction h with
  | empty | oneOf | assertion | timesZero | upToEnd | loopEnd => cases hmem
  | pass =>
      cases List.mem_singleton.mp hmem
      exact List.mem_singleton_self group
  | altFirst _ ih => exact List.mem_append_left _ (ih hmem)
  | altSecond _ ih => exact List.mem_append_right _ (ih hmem)
  | seq _ _ ihFirst ihSecond =>
      rcases List.mem_append.mp hmem with hfirst | hsecond
      · exact List.mem_append_left _ (ihFirst hfirst)
      · exact List.mem_append_right _ (ihSecond hsecond)
  | timesSucc _ _ ihRound ihRest | upToRound _ _ ihRound ihRest
  | loopRound _ _ ihRound ihRest | oneOrMore _ _ ihRound ihRest =>
      rcases List.mem_append.mp hmem with hround | hrest
      · exact ihRound hround
      · exact ihRest hrest

theorem exists_of_meets {test : CharSet → Bool} (hmeets : pattern.meets test = true)
    (h : Takes subject pattern start stop passed) :
    ∃ position char set, start ≤ position ∧ position < stop ∧
      subject.text[position]? = some char ∧ test set = true ∧ set.contains char = true := by
  induction h with
  | empty | assertion | pass | timesZero | upToEnd | upToRound | loopEnd | loopRound => cases hmeets
  | @oneOf set position char hchar hset =>
      exact ⟨position, char, set, Nat.le_refl _, Nat.lt_succ_self _, hchar, hmeets, hset⟩
  | altFirst _ ih => exact ih (Bool.and_eq_true_iff.mp hmeets).1
  | altSecond _ ih => exact ih (Bool.and_eq_true_iff.mp hmeets).2
  | seq hfirst hsecond ihFirst ihSecond =>
      rcases Bool.or_eq_true_iff.mp hmeets with hmeets | hmeets
      · obtain ⟨position, char, set, hstart, hstop, htaken⟩ := ihFirst hmeets
        exact ⟨position, char, set, hstart, Nat.lt_of_lt_of_le hstop hsecond.start_le_stop, htaken⟩
      · obtain ⟨position, char, set, hstart, hstop, htaken⟩ := ihSecond hmeets
        exact ⟨position, char, set, Nat.le_trans hfirst.start_le_stop hstart, hstop, htaken⟩
  | timesSucc _ hrest ihRound _ | oneOrMore _ hrest ihRound _ =>
      obtain ⟨position, char, set, hstart, hstop, htaken⟩ := ihRound hmeets
      exact ⟨position, char, set, hstart, Nat.lt_of_lt_of_le hstop hrest.start_le_stop, htaken⟩

def shifted (passed : Passed) (distance : Nat) : Passed :=
  passed.map fun (passing, position) => (passing, distance + position)

theorem of_behind {position : Nat}
    (h : Takes (subject.behind position) pattern start stop passed) :
    Takes subject pattern (position + start) (position + stop) (shifted passed position) := by
  induction h with
  | empty => exact .empty
  | oneOf hchar hset =>
      apply Takes.oneOf _ hset
      rw [← hchar]
      exact List.getElem?_drop.symm
  | assertion hclaim =>
      apply Takes.assertion
      rw [← Subject.around_behind]
      exact hclaim
  | pass => exact .pass
  | altFirst _ ih => exact .altFirst ih
  | altSecond _ ih => exact .altSecond ih
  | timesZero => exact .timesZero
  | upToEnd => exact .upToEnd
  | loopEnd => exact .loopEnd
  | seq _ _ ih₁ ih₂ =>
      rw [shifted, List.map_append]
      exact .seq ih₁ ih₂
  | timesSucc _ _ ih₁ ih₂ =>
      rw [shifted, List.map_append]
      exact .timesSucc ih₁ ih₂
  | upToRound _ _ ih₁ ih₂ =>
      rw [shifted, List.map_append]
      exact .upToRound ih₁ ih₂
  | loopRound _ _ ih₁ ih₂ =>
      rw [shifted, List.map_append]
      exact .loopRound ih₁ ih₂
  | oneOrMore _ _ ih₁ ih₂ =>
      rw [shifted, List.map_append]
      exact .oneOrMore ih₁ ih₂

end Takes

end Pattern

end DocMarkup
