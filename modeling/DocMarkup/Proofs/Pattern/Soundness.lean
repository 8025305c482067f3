import DocMarkup.Pattern.Matching
import DocMarkup.Proofs.Pattern.Takes

/-!
What is found is a way through the pattern.

Every thread stands for a way through the pattern on which the rest is left to match. Entering
a pattern, taking a character and starting again keep this, so a complete thread is a match.
-/

namespace DocMarkup

namespace Pattern

variable {subject : Subject} {goal : Pattern} {position : Nat}

inductive TakesAll (subject : Subject) : Todo → Nat → Nat → Passed → Prop
  | nil {position : Nat} : TakesAll subject [] position position []
  | cons {part : Part} {rest : Todo} {start middle stop : Nat} {passed later : Passed}
      (hpart : Takes subject part.pattern start middle passed)
      (hrest : TakesAll subject rest middle stop later) :
      TakesAll subject (part :: rest) start stop (passed ++ later)

theorem TakesAll.skip {part : Part} {rest : Todo} {start middle stop : Nat} {later : Passed}
    (hpart : Takes subject part.pattern start middle [])
    (hrest : TakesAll subject rest middle stop later) :
    TakesAll subject (part :: rest) start stop later := by
  rw [← List.nil_append later]
  exact .cons hpart hrest

/-- Whatever the first todo takes from a position on, the second one takes. -/
def Refines (subject : Subject) (position : Nat) (todo other : Todo) : Prop :=
  ∀ ⦃stop : Nat⦄ ⦃later : Passed⦄,
    TakesAll subject todo position stop later → TakesAll subject other position stop later

section

variable {label first second : Label} {pattern part other : Pattern} {rest : Todo}

theorem refines_rest (hpattern : Takes subject pattern position position []) :
    Refines subject position rest (⟨label, pattern⟩ :: rest) :=
  fun _ _ hrest => .skip hpattern hrest

theorem refines_part
    (hpart : ∀ {stop : Nat} {passed : Passed}, Takes subject part position stop passed →
      Takes subject pattern position stop passed) :
    Refines subject position (⟨first, part⟩ :: rest) (⟨label, pattern⟩ :: rest) := by
  intro stop later h
  cases h with
  | cons htaken hrest => exact .cons (hpart htaken) hrest

theorem refines_parts
    (hparts : ∀ {middle stop : Nat} {passed later : Passed},
      Takes subject part position middle passed → Takes subject other middle stop later →
        Takes subject pattern position stop (passed ++ later)) :
    Refines subject position (⟨first, part⟩ :: ⟨second, other⟩ :: rest)
      (⟨label, pattern⟩ :: rest) := by
  intro stop later h
  cases h with
  | cons hpart h =>
      cases h with
      | cons hother hrest =>
          rw [← List.append_assoc]
          exact .cons (hparts hpart hother) hrest

end

def Trace.passed (trace : Trace) : Passed :=
  trace.marks.reverse.map fun (passing, distance) => (passing, trace.origin + distance)

/-- The trace stands for a way through the goal on which the todo is left to match. -/
structure Trace.LeadsTo (subject : Subject) (goal : Pattern) (trace : Trace) (todo : Todo)
    (position : Nat) : Prop where
  origin_le : trace.origin ≤ position
  takes : ∀ ⦃stop : Nat⦄ ⦃later : Passed⦄, TakesAll subject todo position stop later →
    Takes subject goal trace.origin stop (trace.passed ++ later)

namespace Trace.LeadsTo

variable {trace : Trace} {todo other : Todo}

theorem refine (h : trace.LeadsTo subject goal todo position)
    (hrefines : Refines subject position other todo) :
    trace.LeadsTo subject goal other position :=
  ⟨h.origin_le, fun _ _ hother => h.takes (hrefines hother)⟩

theorem pass {passing : Mark} {label : Label} {rest : Todo}
    (h : trace.LeadsTo subject goal (⟨label, mark passing⟩ :: rest) position) :
    (trace.pass passing position).LeadsTo subject goal rest position := by
  refine ⟨h.origin_le, fun stop later hrest => ?_⟩
  have hpassed : (trace.pass passing position).passed = trace.passed ++ [(passing, position)] := by
    simp [passed, Trace.pass, Nat.add_sub_cancel' h.origin_le]
  rw [hpassed, List.append_assoc]
  exact h.takes (TakesAll.cons .pass hrest)

theorem oneOf {set : CharSet} {label : Label} {rest : Todo} {char : Char}
    (h : trace.LeadsTo subject goal (⟨label, .oneOf set⟩ :: rest) position)
    (hchar : subject.text[position]? = some char) (hset : set.contains char = true) :
    trace.LeadsTo subject goal rest (position + 1) :=
  ⟨Nat.le_succ_of_le h.origin_le, fun _ _ hrest => h.takes (.skip (.oneOf hchar hset) hrest)⟩

theorem complete (h : trace.LeadsTo subject goal [] position) :
    Takes subject goal trace.origin position trace.passed := by
  rw [← List.append_nil trace.passed]
  exact h.takes .nil

theorem origin {label : Label} :
    Trace.LeadsTo subject goal ⟨position, []⟩ [⟨label, goal⟩] position := by
  refine ⟨Nat.le_refl position, fun _ _ h => ?_⟩
  cases h with
  | cons hgoal hrest =>
      cases hrest
      rw [List.append_nil]
      exact hgoal

end Trace.LeadsTo

def Thread.Sound (subject : Subject) (goal : Pattern) (position : Nat) : Thread → Prop
  | .complete trace => trace.LeadsTo subject goal [] position
  | .waiting set todo trace =>
      ∀ char, subject.text[position]? = some char → set.contains char = true →
        trace.LeadsTo subject goal todo (position + 1)

def Frontier.Sound (subject : Subject) (goal : Pattern) (position : Nat)
    (frontier : Frontier) : Prop :=
  ∀ thread ∈ frontier.threads, thread.Sound subject goal position

theorem Frontier.Sound.emit {frontier : Frontier} {thread : Thread}
    (hfrontier : frontier.Sound subject goal position)
    (hthread : thread.Sound subject goal position) :
    (frontier.emit thread).Sound subject goal position := by
  intro other hmem
  rcases List.mem_cons.mp hmem with rfl | hmem
  · exact hthread
  · exact hfrontier other hmem

theorem Frontier.sound_empty : Frontier.empty.Sound subject goal position :=
  fun _ hmem => nomatch hmem

/-- What follows a todo only adds sound threads. -/
def Keeps (subject : Subject) (goal : Pattern) (position : Nat) (todo : Todo)
    (next : Continuation) : Prop :=
  ∀ ⦃trace : Trace⦄ ⦃frontier : Frontier⦄, trace.LeadsTo subject goal todo position →
    frontier.Sound subject goal position → (next trace frontier).Sound subject goal position

section

variable {todo other rest : Todo} {next round : Continuation} {entry : Entry}
  {body : Pattern} {label : Label} {greedy : Bool}

theorem Keeps.visiting (h : Keeps subject goal position todo next) :
    Keeps subject goal position todo (visiting other next) := by
  intro trace frontier htrace hfrontier
  unfold Pattern.visiting
  split
  · exact hfrontier
  · exact h htrace hfrontier

theorem Keeps.skip : Keeps subject goal position todo fun _ frontier => frontier :=
  fun _ _ _ hfrontier => hfrontier

/-- Entering the body puts it in front of what is left. -/
def KeepsEntry (subject : Subject) (goal : Pattern) (position : Nat) (body : Pattern)
    (entry : Entry) : Prop :=
  ∀ (label : Label) ⦃rest : Todo⦄ ⦃next : Continuation⦄,
    Keeps subject goal position rest next →
      Keeps subject goal position (⟨label, body⟩ :: rest) (entry label rest next)

theorem KeepsEntry.times (hbody : KeepsEntry subject goal position body entry)
    (hnext : Keeps subject goal position rest next) {count : Nat} {outer label : Label} :
    Keeps subject goal position (⟨outer, times count body⟩ :: rest)
      (enterTimes body entry rest next count label) := by
  induction count generalizing outer label with
  | zero => exact fun _ _ htrace => hnext (htrace.refine (refines_rest .timesZero))
  | succ count ih =>
      intro trace frontier htrace
      exact hbody _ (Keeps.visiting ih) (htrace.refine (refines_parts .timesSucc))

theorem KeepsEntry.upTo (hbody : KeepsEntry subject goal position body entry)
    (hnext : Keeps subject goal position rest next) {count : Nat} {outer label : Label} :
    Keeps subject goal position (⟨outer, upTo greedy count body⟩ :: rest)
      (enterUpTo greedy body entry rest next count label) := by
  induction count generalizing outer label with
  | zero => exact fun _ _ htrace => hnext (htrace.refine (refines_rest .upToEnd))
  | succ count ih =>
      intro trace frontier htrace hfrontier
      have hend := htrace.refine (refines_rest .upToEnd)
      simp only [enterUpTo]
      split
      · apply hnext hend
        exact hbody _ (Keeps.visiting ih) (htrace.refine (refines_parts .upToRound)) hfrontier
      · apply hbody _ (Keeps.visiting ih) (htrace.refine (refines_parts .upToRound))
        exact hnext hend hfrontier

theorem Keeps.loop {first second : Label}
    (hround : Keeps subject goal position (⟨first, body⟩ :: ⟨second, loop greedy body⟩ :: rest)
      round)
    (hnext : Keeps subject goal position rest next) :
    Keeps subject goal position (⟨label, loop greedy body⟩ :: rest)
      (enterLoop greedy round next) := by
  intro trace frontier htrace hfrontier
  have hend := htrace.refine (refines_rest .loopEnd)
  unfold enterLoop
  split
  · exact hnext hend (hround (htrace.refine (refines_parts .loopRound)) hfrontier)
  · exact hround (htrace.refine (refines_parts .loopRound)) (hnext hend hfrontier)

theorem keepsEntry_enter (pattern : Pattern) :
    KeepsEntry subject goal position pattern
      fun label rest next => enter (subject.around position) position pattern label rest next := by
  induction pattern with
  | empty =>
      intro label rest next hnext
      unfold enter
      exact Keeps.visiting fun _ _ htrace => hnext (htrace.refine (refines_rest .empty))
  | oneOf set =>
      intro label rest next hnext
      unfold enter
      exact Keeps.visiting fun _ _ htrace hfrontier =>
        hfrontier.emit fun char hchar hset => htrace.oneOf hchar hset
  | assertion claim =>
      intro label rest next hnext
      unfold enter
      apply Keeps.visiting
      intro trace frontier htrace hfrontier
      simp only
      split
      · next hclaim => exact hnext (htrace.refine (refines_rest (.assertion hclaim))) hfrontier
      · exact hfrontier
  | mark passing =>
      intro label rest next hnext
      unfold enter
      exact Keeps.visiting fun _ _ htrace => hnext htrace.pass
  | seq first second ihFirst ihSecond =>
      intro label rest next hnext
      unfold enter
      apply Keeps.visiting
      intro trace frontier htrace
      exact ihFirst _ (ihSecond _ hnext) (htrace.refine (refines_parts .seq))
  | alt first second ihFirst ihSecond =>
      intro label rest next hnext
      unfold enter
      apply Keeps.visiting
      intro trace frontier htrace hfrontier
      apply ihSecond _ hnext (htrace.refine (refines_part .altSecond))
      exact ihFirst _ hnext (htrace.refine (refines_part .altFirst)) hfrontier
  | times count body ih =>
      intro label rest next hnext
      unfold enter
      exact Keeps.visiting (ih.times hnext)
  | upTo greedy count body ih =>
      intro label rest next hnext
      unfold enter
      exact Keeps.visiting (ih.upTo hnext)
  | loop greedy body ih =>
      intro label rest next hnext
      unfold enter
      -- A round that takes nothing is given up, so nothing has to follow it at this position.
      exact Keeps.visiting (Keeps.loop (ih _ Keeps.skip) hnext)
  | oneOrMore greedy body ih =>
      intro label rest next hnext
      unfold enter
      apply Keeps.visiting
      intro trace frontier htrace
      exact ih _ (Keeps.visiting (Keeps.loop (ih _ Keeps.skip) hnext))
        (htrace.refine (refines_parts .oneOrMore))

theorem keeps_enterAll (todo : Todo) :
    Keeps subject goal position todo (enterAll (subject.around position) position todo) := by
  induction todo with
  | nil => exact Keeps.visiting fun _ _ htrace hfrontier => hfrontier.emit htrace
  | cons part rest ih => exact keepsEntry_enter part.pattern part.label ih

end

theorem advance_sound {char : Char} (hchar : subject.text[position]? = some char)
    {threads : List Thread} {frontier : Frontier}
    (hthreads : ∀ thread ∈ threads, thread.Sound subject goal position)
    (hfrontier : frontier.Sound subject goal (position + 1)) :
    (advance char (subject.around (position + 1)) (position + 1) threads frontier).Sound
      subject goal (position + 1) := by
  induction threads generalizing frontier with
  | nil => exact hfrontier
  | cons thread threads ih =>
      cases thread with
      | complete trace => exact hfrontier
      | waiting set todo trace =>
          have hlater := fun other hmem => hthreads other (List.mem_cons_of_mem _ hmem)
          apply ih hlater
          split
          · next hset =>
              have htrace := hthreads _ List.mem_cons_self char hchar hset
              exact keeps_enterAll todo htrace hfrontier
          · exact hfrontier

theorem start_sound {frontier : Frontier} (hfrontier : frontier.Sound subject goal position) :
    (goal.start (subject.around position) position frontier).Sound subject goal position :=
  keeps_enterAll _ Trace.LeadsTo.origin hfrontier

theorem completed?_sound {threads : List Thread} {trace : Trace}
    (hthreads : ∀ thread ∈ threads, thread.Sound subject goal position)
    (h : completed? threads = some trace) : trace.LeadsTo subject goal [] position := by
  induction threads with
  | nil => cases h
  | cons thread threads ih =>
      cases thread with
      | complete other =>
          cases h
          exact hthreads _ List.mem_cons_self
      | waiting set todo other =>
          exact ih (fun thread hmem => hthreads thread (List.mem_cons_of_mem _ hmem)) h

def Match.passed (found : Match) : Passed :=
  found.marks.reverse.map fun (passing, distance) => (passing, found.start + distance)

structure Match.Sound (subject : Subject) (goal : Pattern) (found : Match) : Prop where
  stop_le : found.stop ≤ subject.text.length
  takes : Takes subject goal found.start found.stop found.passed

theorem Match.Sound.of_behind {found : Match} (h : found.Sound (subject.behind position) goal)
    (hposition : position ≤ subject.text.length) :
    ({ found with start := position + found.start } : Match).Sound subject goal := by
  have hstop : position + found.start + found.length = position + found.stop :=
    Nat.add_assoc position found.start found.length
  have hpassed : ({ found with start := position + found.start } : Match).passed =
      Takes.shifted found.passed position := by
    simp [Match.passed, Takes.shifted, Nat.add_assoc]
  constructor
  · have hle : found.stop ≤ subject.text.length - position := by
      rw [← List.length_drop]
      exact h.stop_le
    show position + found.start + found.length ≤ subject.text.length
    omega
  · rw [hpassed]
    show Takes subject goal (position + found.start) (position + found.start + found.length) _
    rw [hstop]
    exact h.takes.of_behind

theorem Trace.LeadsTo.finish {trace : Trace} (h : trace.LeadsTo subject goal [] position)
    (hposition : position ≤ subject.text.length) :
    (trace.finish position).Sound subject goal := by
  have hstop : (trace.finish position).stop = position := Nat.add_sub_cancel' h.origin_le
  constructor
  · rw [hstop]
    exact hposition
  · rw [hstop]
    exact h.complete

theorem latest_sound {threads : List Thread} {earlier : Option Match}
    (hposition : position ≤ subject.text.length)
    (hthreads : ∀ thread ∈ threads, thread.Sound subject goal position)
    (hearlier : ∀ found, earlier = some found → found.Sound subject goal) :
    ∀ found, latest threads position earlier = some found → found.Sound subject goal := by
  intro found h
  unfold latest at h
  cases hcompleted : completed? threads with
  | none =>
      rw [hcompleted] at h
      exact hearlier found h
  | some trace =>
      rw [hcompleted] at h
      cases h
      exact (completed?_sound hthreads hcompleted).finish hposition

theorem follow_sound {restart : Option Pattern} {threads : List Thread} {earlier : Option Match}
    {text : List Char} (hrestart : ∀ pattern, restart = some pattern → pattern = goal)
    (htext : subject.text.drop position = text) (hposition : position ≤ subject.text.length)
    (hthreads : ∀ thread ∈ threads, thread.Sound subject goal position)
    (hearlier : ∀ found, earlier = some found → found.Sound subject goal) :
    ∀ found, follow restart threads position earlier text = some found →
      found.Sound subject goal := by
  induction text generalizing restart threads position earlier with
  | nil => exact latest_sound hposition hthreads hearlier
  | cons char rest ih =>
      have hfound := latest_sound hposition hthreads hearlier
      have hchar : subject.text[position]? = some char := by
        rw [← List.head?_drop, htext, List.head?_cons]
      have hrest : subject.text.drop (position + 1) = rest := by
        rw [← List.drop_drop, htext, List.drop_one, List.tail_cons]
      have haround : subject.around (position + 1) = ⟨some char, rest.head?⟩ := by
        simp [Subject.around, hchar, ← hrest]
      intro found h
      simp only [follow] at h
      -- A search may start again at the next position, but only with the goal.
      generalize hagain : (if (latest threads position earlier).isSome then none else restart)
        = again at h
      have hgoal : ∀ pattern, again = some pattern → pattern = goal := by
        intro pattern hpattern
        rw [← hagain] at hpattern
        split at hpattern
        · cases hpattern
        · exact hrestart pattern hpattern
      split at h
      · exact hfound found h
      · refine ih hgoal hrest (List.getElem?_eq_some_iff.mp hchar).1 ?_ hfound found h
        have hadvanced := advance_sound hchar hthreads Frontier.sound_empty
        intro thread hmem
        rw [List.mem_reverse, ← haround] at hmem
        cases again with
        | none => exact hadvanced thread hmem
        | some pattern =>
            cases hgoal pattern rfl
            exact start_sound hadvanced thread hmem

theorem initial_sound {before : Option Char} {text : List Char} :
    ∀ thread ∈ goal.initial before text, thread.Sound ⟨before, text⟩ goal 0 := by
  intro thread hmem
  have haround : Subject.around ⟨before, text⟩ 0 = ⟨before, text.head?⟩ := by
    simp [Subject.around, List.head?_eq_getElem?]
  rw [initial, List.mem_reverse, ← haround] at hmem
  exact start_sound Frontier.sound_empty thread hmem

theorem search?_sound {before : Option Char} {text : List Char} {found : Match}
    (h : goal.search? before text = some found) : found.Sound ⟨before, text⟩ goal :=
  follow_sound (fun _ hpattern => (Option.some.inj hpattern).symm) rfl (Nat.zero_le _)
    initial_sound (fun _ hearlier => by cases hearlier) found h

theorem match?_sound {before : Option Char} {text : List Char} {found : Match}
    (h : goal.match? before text = some found) : found.Sound ⟨before, text⟩ goal :=
  follow_sound (fun _ hpattern => by cases hpattern) rfl (Nat.zero_le _)
    initial_sound (fun _ hearlier => by cases hearlier) found h

theorem Match.mem_passed_of_lookup {found : Match} {passing : Mark} {distance : Nat}
    (h : found.marks.lookup passing = some distance) :
    (passing, found.start + distance) ∈ found.passed := by
  obtain ⟨before, after, hmarks, -⟩ := List.lookup_eq_some_iff.mp h
  simp [Match.passed, hmarks]

theorem Match.Sound.span?_eq_none {found : Match} (h : found.Sound subject goal) {group : String}
    (hgroup : group ∉ goal.groups) : found.span? group = none := by
  cases hstart : found.marks.lookup (.start group) with
  | none => simp [Match.span?, hstart]
  | some distance => exact absurd (h.takes.group_mem (mem_passed_of_lookup hstart)) hgroup

end Pattern

end DocMarkup
