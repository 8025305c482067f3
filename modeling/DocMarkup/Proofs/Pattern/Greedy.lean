import DocMarkup.Proofs.Pattern.Completeness

/-!
Greedy loops.

The preferred way through a pattern leaves a greedy loop only where it has to: after no further
rounds does what is left lead to an end.
-/

namespace DocMarkup

namespace Pattern

variable {subject : Subject} {path : List Todo} {todo rest : Todo} {position : Nat}
  {trace : Trace} {found : Match}

theorem Trace.marks_suffix_follow (trace : Trace) (passing : Option Mark) (position : Nat) :
    trace.marks <:+ (trace.follow passing position).marks := by
  cases passing with
  | none => exact List.suffix_rfl
  | some passing => exact List.suffix_cons _ _

theorem Finds.marks_suffix (h : Finds subject path todo position trace found) :
    trace.marks <:+ found.marks := by
  induction h with
  | finish => exact List.suffix_rfl
  | take _ _ _ _ _ ih => exact ih
  | go _ _ _ _ ih => exact (Trace.marks_suffix_follow _ _ _).trans ih

/-- The preferred way comes to this todo, over some that took no character. -/
inductive Reaches (subject : Subject) (todo : Todo) (position : Nat) (trace : Trace)
    (found : Match) : Prop
  | intro {path : List Todo}
      (hpath : ∀ met ∈ path, ∃ branches, move (subject.around position) met = .go branches)
      (hfinds : Finds subject path todo position trace found)

namespace Reaches

theorem of_finds (h : Finds subject [] todo position trace found) :
    Reaches subject todo position trace found :=
  ⟨List.forall_mem_nil _, h⟩

theorem marks_suffix (h : Reaches subject todo position trace found) :
    trace.marks <:+ found.marks := by
  obtain ⟨-, hfinds⟩ := h
  exact hfinds.marks_suffix

theorem found_eq (h : Reaches subject [] position trace found) : found = trace.finish position := by
  obtain ⟨-, hfinds⟩ := h
  cases hfinds with
  | finish => rfl
  | take _ hmove => cases hmove
  | go _ hmove => cases hmove

theorem only {next : Todo} {passing : Option Mark}
    (h : Reaches subject todo position trace found)
    (hmove : move (subject.around position) todo = .go [(passing, next)]) :
    Reaches subject next position (trace.follow passing position) found := by
  obtain ⟨hpath, hfinds⟩ := h
  cases hfinds with
  | finish => cases hmove
  | take _ hother => cases hmove.symm.trans hother
  | @go _ _ other _ before after via _ _ _ hother _ hnext =>
      have hbranches := Move.go.inj (hmove.symm.trans hother)
      cases before with
      | nil =>
          cases hbranches
          exact ⟨List.forall_mem_cons.mpr ⟨⟨_, hmove⟩, hpath⟩, hnext⟩
      | cons branch before => simp at hbranches

theorem take {set : CharSet} (h : Reaches subject todo position trace found)
    (hmove : move (subject.around position) todo = .take set rest) :
    ∃ char, subject.text[position]? = some char ∧ set.contains char = true ∧
      Reaches subject rest (position + 1) trace found := by
  obtain ⟨-, hfinds⟩ := h
  cases hfinds with
  | finish => cases hmove
  | take _ hother hchar hset hrest =>
      cases hmove.symm.trans hother
      exact ⟨_, hchar, hset, of_finds hrest⟩
  | go _ hother => cases hmove.symm.trans hother

section

variable {label : Label} {set : CharSet}

theorem loop_cases
    (h : Reaches subject (⟨label, loop true (oneOf set)⟩ :: rest) position trace found) :
    (∃ char, subject.text[position]? = some char ∧ set.contains char = true ∧
      Reaches subject (⟨label, loop true (oneOf set)⟩ :: rest) (position + 1) trace found) ∨
    Reaches subject rest position trace found ∧
      ∀ char, subject.text[position]? = some char → set.contains char = true →
        Fails subject [] (⟨label, loop true (oneOf set)⟩ :: rest) (position + 1) := by
  obtain ⟨hpath, hfinds⟩ := h
  cases hfinds with
  | take _ hmove => cases hmove
  | @go _ _ next _ before after passing _ _ _ hmove hbefore hnext =>
      have hbranches := Move.go.inj hmove
      have hlonger : ∀ met ∈ (⟨label, loop true (oneOf set)⟩ :: rest) :: _,
          ∃ branches, move (subject.around position) met = .go branches :=
        List.forall_mem_cons.mpr ⟨⟨_, rfl⟩, hpath⟩
      match before with
      | [] =>
          cases hbranches
          exact .inl ((intro hlonger hnext).take rfl)
      | [round] =>
          cases hbranches
          refine .inr ⟨⟨hlonger, hnext⟩, fun char hchar hset => ?_⟩
          cases hbefore _ List.mem_cons_self with
          | again hmem =>
              obtain ⟨branches, hgo⟩ := hlonger _ hmem
              cases hgo
          | take hmove hrest =>
              cases hmove
              exact hrest char hchar hset
          | go hmove => cases hmove
      | round :: stop :: before => simp [inOrder] at hbranches

theorem not_ends_of_fails
    (hstop : ∀ char, subject.text[position]? = some char → set.contains char = true →
      Fails subject [] (⟨label, loop true (oneOf set)⟩ :: rest) (position + 1))
    {last : Nat} (hlt : position < last)
    (htakes : Takes subject (loop true (oneOf set)) position last []) :
    ¬ Ends subject rest last := by
  intro hends
  generalize hpassed : ([] : Passed) = passed at htakes
  cases htakes with
  | loopEnd => exact absurd hlt (Nat.lt_irrefl _)
  | loopRound hround hrounds =>
      cases hround with
      | oneOf hchar hset => exact (hrounds.ends hends).not_fails (hstop _ hchar hset)

/-- The loop is left where no further rounds lead to an end. -/
theorem exists_stop
    (h : Reaches subject (⟨label, loop true (oneOf set)⟩ :: rest) position trace found) :
    ∃ stop, Takes subject (loop true (oneOf set)) position stop [] ∧
      Reaches subject rest stop trace found ∧
      ∀ last, stop < last → Takes subject (loop true (oneOf set)) stop last [] →
        ¬ Ends subject rest last := by
  -- Each round takes a character, so the induction is on what is left of the text.
  induction hleft : subject.text.length - position generalizing position with
  | zero =>
      rcases h.loop_cases with ⟨char, hchar, -⟩ | ⟨hrest, hstop⟩
      · have hlt := (List.getElem?_eq_some_iff.mp hchar).1
        omega
      · exact ⟨position, .loopEnd, hrest, fun _ => not_ends_of_fails hstop⟩
  | succ left ih =>
      rcases h.loop_cases with ⟨char, hchar, hset, hround⟩ | ⟨hrest, hstop⟩
      · obtain ⟨stop, htakes, hrest, hlongest⟩ := ih hround (by omega)
        exact ⟨stop, .loopRound (.oneOf hchar hset) htakes, hrest, hlongest⟩
      · exact ⟨position, .loopEnd, hrest, fun _ => not_ends_of_fails hstop⟩

end

end Reaches

end Pattern

end DocMarkup
