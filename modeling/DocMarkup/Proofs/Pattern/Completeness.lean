import DocMarkup.Proofs.Pattern.Lockstep

/-!
What a pattern takes is found.

A way through a pattern may go round a loop without taking a character, and backtracking gives
such a way up. But it gives up only what it left for a detour, and the rest of the way is shorter
from there on. So of all ways to an end the shortest ones are never given up.
-/

namespace DocMarkup

namespace Pattern

variable {subject : Subject}

inductive Succeeds (subject : Subject) : (moves : Nat) → Todo → (position : Nat) → Prop
  | finish {position : Nat} : Succeeds subject 0 [] position
  | take {moves : Nat} {todo rest : Todo} {position : Nat} {set : CharSet} {char : Char}
      (hmove : move (subject.around position) todo = .take set rest)
      (hchar : subject.text[position]? = some char) (hset : set.contains char = true)
      (hrest : Succeeds subject moves rest (position + 1)) :
      Succeeds subject (moves + 1) todo position
  | go {moves : Nat} {todo : Todo} {position : Nat} {branches : List Branch} {branch : Branch}
      (hmove : move (subject.around position) todo = .go branches) (hmem : branch ∈ branches)
      (hbranch : Succeeds subject moves branch.2 position) :
      Succeeds subject (moves + 1) todo position

theorem Succeeds.exists_least {moves : Nat} {todo : Todo} {position : Nat}
    (h : Succeeds subject moves todo position) :
    ∃ least ≤ moves, Succeeds subject least todo position ∧
      ∀ fewer < least, ¬ Succeeds subject fewer todo position := by
  induction moves using Nat.strongRecOn with
  | _ moves ih =>
      by_cases hfewer : ∃ fewer < moves, Succeeds subject fewer todo position
      · obtain ⟨fewer, hlt, hsucceeds⟩ := hfewer
        obtain ⟨least, hle, hleast⟩ := ih fewer hlt hsucceeds
        exact ⟨least, Nat.le_of_lt (Nat.lt_of_le_of_lt hle hlt), hleast⟩
      · exact ⟨moves, Nat.le_refl moves, h, fun fewer hlt hother => hfewer ⟨fewer, hlt, hother⟩⟩

/-- A shortest way to an end does not come back to anything that was left for it, as from there
on all ways are longer. -/
theorem Succeeds.not_fails {moves : Nat} {path : List Todo} {todo : Todo} {position : Nat}
    (h : Succeeds subject moves todo position)
    (hleast : ∀ fewer < moves, ¬ Succeeds subject fewer todo position)
    (hpath : ∀ met ∈ path, ∀ other ≤ moves, ¬ Succeeds subject other met position) :
    ¬ Fails subject path todo position := by
  induction moves using Nat.strongRecOn generalizing path todo position with
  | _ moves ih =>
      intro hfails
      cases hfails with
      | again hmem => exact hpath todo hmem moves (Nat.le_refl moves) h
      | take hmove hfails =>
          cases h with
          | finish => cases hmove
          | take hother hchar hset hrest =>
              cases hmove.symm.trans hother
              obtain ⟨least, hle, hshort, hfewer⟩ := hrest.exists_least
              refine ih least (Nat.lt_succ_of_le hle) hshort hfewer ?_ (hfails _ hchar hset)
              exact fun _ hmem => nomatch hmem
          | go hother => cases hmove.symm.trans hother
      | go hmove hfails =>
          cases h with
          | finish => cases hmove
          | take hother => cases hmove.symm.trans hother
          | go hother hmem hbranch =>
              cases hmove.symm.trans hother
              obtain ⟨least, hle, hshort, hfewer⟩ := hbranch.exists_least
              refine ih least (Nat.lt_succ_of_le hle) hshort hfewer ?_ (hfails _ hmem)
              intro met hmet other hother
              rcases List.mem_cons.mp hmet with rfl | hmet
              · exact hleast other (by omega)
              · exact hpath met hmet other (by omega)

def Ends (subject : Subject) (todo : Todo) (position : Nat) : Prop :=
  ∃ moves, Succeeds subject moves todo position

section

variable {todo rest : Todo} {position : Nat}

theorem Ends.take {set : CharSet} {char : Char}
    (hmove : move (subject.around position) todo = .take set rest)
    (hchar : subject.text[position]? = some char) (hset : set.contains char = true)
    (hrest : Ends subject rest (position + 1)) : Ends subject todo position := by
  obtain ⟨moves, hrest⟩ := hrest
  exact ⟨moves + 1, .take hmove hchar hset hrest⟩

theorem Ends.go {branches : List Branch} {branch : Branch}
    (hmove : move (subject.around position) todo = .go branches) (hmem : branch ∈ branches)
    (hbranch : Ends subject branch.2 position) : Ends subject todo position := by
  obtain ⟨moves, hbranch⟩ := hbranch
  exact ⟨moves + 1, .go hmove hmem hbranch⟩

theorem Ends.not_fails (h : Ends subject todo position) : ¬ Fails subject [] todo position := by
  obtain ⟨moves, hsucceeds⟩ := h
  obtain ⟨least, -, hshort, hfewer⟩ := hsucceeds.exists_least
  exact hshort.not_fails hfewer fun _ hmem => nomatch hmem

end

theorem mem_inOrder (greedy : Bool) (round stop : Branch) :
    round ∈ inOrder greedy round stop ∧ stop ∈ inOrder greedy round stop := by
  cases greedy <;> simp [inOrder]

theorem Takes.ends {pattern : Pattern} {start stop : Nat} {passed : Passed}
    (h : Takes subject pattern start stop passed) {label : Label} {rest : Todo}
    (hrest : Ends subject rest stop) : Ends subject (⟨label, pattern⟩ :: rest) start := by
  induction h generalizing label rest with
  | empty => exact .go rfl List.mem_cons_self hrest
  | oneOf hchar hset => exact .take rfl hchar hset hrest
  | assertion hclaim => exact .go rfl (by rw [if_pos hclaim]; exact List.mem_cons_self) hrest
  | pass => exact .go rfl List.mem_cons_self hrest
  | seq _ _ ihFirst ihSecond => exact .go rfl List.mem_cons_self (ihFirst (ihSecond hrest))
  | altFirst _ ih => exact .go rfl List.mem_cons_self (ih hrest)
  | altSecond _ ih => exact .go rfl (List.mem_cons_of_mem _ List.mem_cons_self) (ih hrest)
  | timesZero => exact .go rfl List.mem_cons_self hrest
  | timesSucc _ _ ihRound ihRest => exact .go rfl List.mem_cons_self (ihRound (ihRest hrest))
  | @upToEnd body greedy count position =>
      cases count with
      | zero => exact .go rfl List.mem_cons_self hrest
      | succ count => exact .go rfl (mem_inOrder greedy _ _).2 hrest
  | @upToRound body greedy _ _ _ _ _ _ _ _ ihRound ihRest =>
      exact .go rfl (mem_inOrder greedy _ _).1 (ihRound (ihRest hrest))
  | @loopEnd body greedy => exact .go rfl (mem_inOrder greedy _ _).2 hrest
  | @loopRound body greedy _ _ _ _ _ _ _ ihRound ihRest =>
      exact .go rfl (mem_inOrder greedy _ _).1 (ihRound (ihRest hrest))
  | oneOrMore _ _ ihRound ihRest => exact .go rfl List.mem_cons_self (ihRound (ihRest hrest))

theorem Takes.not_fails {pattern : Pattern} {start stop : Nat} {passed : Passed}
    (h : Takes subject pattern start stop passed) (label : Label) :
    ¬ Fails subject [] [⟨label, pattern⟩] start :=
  Ends.not_fails (h.ends ⟨0, .finish⟩)

theorem match?_ne_none {pattern : Pattern} {stop : Nat} {passed : Passed}
    (h : Takes subject pattern 0 stop passed) :
    pattern.match? subject.before subject.text ≠ none :=
  fun hnone => h.not_fails .whole (fails_of_match? hnone)

end Pattern

end DocMarkup
