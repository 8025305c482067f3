import DocMarkup.Pattern.Matching
import DocMarkup.Proofs.Pattern.Takes

/-!
Backtracking: which way through a pattern is preferred, said without a frontier.

What is left to do branches in order of preference. A way is tried until it is complete or
until it cannot go on, and only then the next one. On a way nothing is left to do twice at one
position, so no way goes around a loop without taking a character.
-/

namespace DocMarkup

namespace Pattern

variable {subject : Subject}

abbrev Branch := Option Mark × Todo

/-- What can be done next, at one position. -/
inductive Move
  | finish
  | take (set : CharSet) (rest : Todo)
  | go (branches : List Branch)

def inOrder (greedy : Bool) (round stop : Branch) : List Branch :=
  if greedy then [round, stop] else [stop, round]

def moveFrom (here : Surroundings) (label : Label) (rest : Todo) : Pattern → Move
  | empty => .go [(none, rest)]
  | oneOf set => .take set rest
  | assertion claim => .go (if claim.holds here then [(none, rest)] else [])
  | mark passed => .go [(some passed, rest)]
  | seq first second =>
      .go [(none, ⟨inner label 1, first⟩ :: ⟨inner label 2, second⟩ :: rest)]
  | alt first second =>
      .go [(none, ⟨inner label 1, first⟩ :: rest), (none, ⟨inner label 2, second⟩ :: rest)]
  | times 0 _ => .go [(none, rest)]
  | times (count + 1) body =>
      .go [(none, ⟨inner label 1, body⟩ :: ⟨inner label 2, times count body⟩ :: rest)]
  | upTo _ 0 _ => .go [(none, rest)]
  | upTo greedy (count + 1) body =>
      .go (inOrder greedy
        (none, ⟨inner label 1, body⟩ :: ⟨inner label 2, upTo greedy count body⟩ :: rest)
        (none, rest))
  | loop greedy body =>
      .go (inOrder greedy (none, ⟨inner label 1, body⟩ :: ⟨label, loop greedy body⟩ :: rest)
        (none, rest))
  | oneOrMore greedy body =>
      .go [(none, ⟨inner (inner label 1) 1, body⟩ :: ⟨inner label 1, loop greedy body⟩ :: rest)]

def move (here : Surroundings) : Todo → Move
  | [] => .finish
  | part :: rest => moveFrom here part.label rest part.pattern

def Trace.follow (trace : Trace) (passing : Option Mark) (position : Nat) : Trace :=
  match passing with
  | none => trace
  | some passing => trace.pass passing position

/-- No way through the todo leads to an end; `path` holds what was left to do on the way to it
at the same position. -/
inductive Fails (subject : Subject) : (path : List Todo) → Todo → (position : Nat) → Prop
  | again {path : List Todo} {todo : Todo} {position : Nat} (h : todo ∈ path) :
      Fails subject path todo position
  | take {path : List Todo} {todo rest : Todo} {position : Nat} {set : CharSet}
      (hmove : move (subject.around position) todo = .take set rest)
      (hrest : ∀ char, subject.text[position]? = some char → set.contains char = true →
        Fails subject [] rest (position + 1)) :
      Fails subject path todo position
  | go {path : List Todo} {todo : Todo} {position : Nat} {branches : List Branch}
      (hmove : move (subject.around position) todo = .go branches)
      (hbranches : ∀ branch ∈ branches, Fails subject (todo :: path) branch.2 position) :
      Fails subject path todo position

/-- The preferred way through the todo gives a match. -/
inductive Finds (subject : Subject) :
    (path : List Todo) → Todo → (position : Nat) → Trace → Match → Prop
  | finish {path : List Todo} {position : Nat} {trace : Trace} (hnew : [] ∉ path) :
      Finds subject path [] position trace (trace.finish position)
  | take {path : List Todo} {todo rest : Todo} {position : Nat} {set : CharSet} {char : Char}
      {trace : Trace} {found : Match} (hnew : todo ∉ path)
      (hmove : move (subject.around position) todo = .take set rest)
      (hchar : subject.text[position]? = some char) (hset : set.contains char = true)
      (hrest : Finds subject [] rest (position + 1) trace found) :
      Finds subject path todo position trace found
  | go {path : List Todo} {todo next : Todo} {position : Nat} {before after : List Branch}
      {passing : Option Mark} {trace : Trace} {found : Match} (hnew : todo ∉ path)
      (hmove : move (subject.around position) todo = .go (before ++ (passing, next) :: after))
      (hbefore : ∀ branch ∈ before, Fails subject (todo :: path) branch.2 position)
      (hnext : Finds subject (todo :: path) next position (trace.follow passing position) found) :
      Finds subject path todo position trace found

variable {path other : List Todo} {todo rest : Todo} {position : Nat} {trace : Trace}
  {found : Match}

theorem Fails.only {next : Todo} {passing : Option Mark}
    (hmove : move (subject.around position) todo = .go [(passing, next)])
    (hnext : Fails subject (todo :: path) next position) : Fails subject path todo position := by
  refine .go hmove fun branch hmem => ?_
  rwa [List.mem_singleton.mp hmem]

theorem Finds.only {next : Todo} {passing : Option Mark} (hnew : todo ∉ path)
    (hmove : move (subject.around position) todo = .go [(passing, next)])
    (hnext : Finds subject (todo :: path) next position (trace.follow passing position) found) :
    Finds subject path todo position trace found := by
  rw [← List.nil_append [(passing, next)]] at hmove
  exact .go hnew hmove (fun _ hmem => nomatch hmem) hnext

section

variable {first second : Pattern} {label : Label}

theorem Fails.alt
    (hfirst : Fails subject ((⟨label, .alt first second⟩ :: rest) :: path)
      (⟨inner label 1, first⟩ :: rest) position)
    (hsecond : Fails subject ((⟨label, .alt first second⟩ :: rest) :: path)
      (⟨inner label 2, second⟩ :: rest) position) :
    Fails subject path (⟨label, .alt first second⟩ :: rest) position := by
  refine .go rfl fun branch hmem => ?_
  simp only [List.mem_cons, List.not_mem_nil, or_false] at hmem
  rcases hmem with rfl | rfl
  · exact hfirst
  · exact hsecond

theorem Finds.altFirst (hnew : ⟨label, .alt first second⟩ :: rest ∉ path)
    (hfirst : Finds subject ((⟨label, .alt first second⟩ :: rest) :: path)
      (⟨inner label 1, first⟩ :: rest) position trace found) :
    Finds subject path (⟨label, .alt first second⟩ :: rest) position trace found := by
  have hmove : move (subject.around position) (⟨label, .alt first second⟩ :: rest) =
      .go ([] ++ (none, ⟨inner label 1, first⟩ :: rest) ::
        [(none, ⟨inner label 2, second⟩ :: rest)]) := rfl
  exact .go hnew hmove (fun _ hmem => nomatch hmem) hfirst

theorem Finds.altSecond (hnew : ⟨label, .alt first second⟩ :: rest ∉ path)
    (hfirst : Fails subject ((⟨label, .alt first second⟩ :: rest) :: path)
      (⟨inner label 1, first⟩ :: rest) position)
    (hsecond : Finds subject ((⟨label, .alt first second⟩ :: rest) :: path)
      (⟨inner label 2, second⟩ :: rest) position trace found) :
    Finds subject path (⟨label, .alt first second⟩ :: rest) position trace found := by
  have hmove : move (subject.around position) (⟨label, .alt first second⟩ :: rest) =
      .go ([(none, ⟨inner label 1, first⟩ :: rest)] ++
        (none, ⟨inner label 2, second⟩ :: rest) :: []) := rfl
  refine .go hnew hmove (fun branch hmem => ?_) hsecond
  rwa [List.mem_singleton.mp hmem]

end

theorem Fails.mono (h : Fails subject path todo position) (hpath : path ⊆ other) :
    Fails subject other todo position := by
  induction h generalizing other with
  | again hmem => exact .again (hpath hmem)
  | take hmove hrest => exact .take hmove hrest
  | go hmove _ ih =>
      exact .go hmove fun branch hmem => ih branch hmem (List.cons_subset_cons _ hpath)

theorem Fails.cut {cut : Todo} (hcut : Fails subject path cut position)
    (h : Fails subject other todo position) {shorter : List Todo}
    (hother : other ⊆ cut :: shorter) (hpath : path ⊆ shorter) :
    Fails subject shorter todo position := by
  induction h generalizing shorter with
  | again hmem =>
      rcases List.mem_cons.mp (hother hmem) with rfl | hmem
      -- Where the way failed for coming back to what was cut, that is tried again and fails.
      · exact hcut.mono hpath
      · exact .again hmem
  | take hmove hrest => exact .take hmove hrest
  | @go other todo position branches hmove _ ih =>
      refine .go hmove fun branch hmem => ih branch hmem hcut ?_ ?_
      · intro met hmet
        rcases List.mem_cons.mp hmet with rfl | hmet
        · exact List.mem_cons_of_mem _ List.mem_cons_self
        · rcases List.mem_cons.mp (hother hmet) with rfl | hmet
          · exact List.mem_cons_self
          · exact List.mem_cons_of_mem _ (List.mem_cons_of_mem _ hmet)
      · exact List.Subset.trans hpath (List.subset_cons_self _ _)

theorem Finds.not_fails (h : Finds subject path todo position trace found) :
    ¬ Fails subject path todo position := by
  induction h with
  | finish hnew =>
      intro hfails
      cases hfails with
      | again hmem => exact hnew hmem
      | take hmove => cases hmove
      | go hmove => cases hmove
  | take hnew hmove hchar hset _ ih =>
      intro hfails
      cases hfails with
      | again hmem => exact hnew hmem
      | take hother hrest =>
          cases hmove.symm.trans hother
          exact ih (hrest _ hchar hset)
      | go hother => cases hmove.symm.trans hother
  | go hnew hmove hbefore _ ih =>
      intro hfails
      cases hfails with
      | again hmem => exact hnew hmem
      | take hother => cases hmove.symm.trans hother
      | go hother hbranches =>
          cases hmove.symm.trans hother
          exact ih (hbranches _ (List.mem_append_right _ List.mem_cons_self))

/-- Of two members of a list that both come after what fails, neither comes first. -/
theorem eq_of_first {α : Type} {fails : α → Prop} {before before' after after' : List α}
    {member member' : α} (h : before ++ member :: after = before' ++ member' :: after')
    (hbefore : ∀ other ∈ before, fails other) (hmember : ¬ fails member)
    (hbefore' : ∀ other ∈ before', fails other) (hmember' : ¬ fails member') :
    member = member' := by
  induction before generalizing before' with
  | nil =>
      cases before' with
      | nil =>
          cases h
          rfl
      | cons other before' =>
          cases h
          exact absurd (hbefore' _ List.mem_cons_self) hmember
  | cons other before ih =>
      cases before' with
      | nil =>
          cases h
          exact absurd (hbefore _ List.mem_cons_self) hmember'
      | cons other' before' =>
          obtain ⟨-, h⟩ := List.cons.inj h
          exact ih h (fun met hmem => hbefore met (List.mem_cons_of_mem _ hmem))
            fun met hmem => hbefore' met (List.mem_cons_of_mem _ hmem)

theorem Finds.unique {other : Match} (h : Finds subject path todo position trace found)
    (hother : Finds subject path todo position trace other) : found = other := by
  induction h generalizing other with
  | finish hnew =>
      cases hother with
      | finish => rfl
      | take _ hmove => cases hmove
      | go _ hmove => cases hmove
  | take hnew hmove hchar hset _ ih =>
      cases hother with
      | finish => cases hmove
      | take _ hmove' hchar' _ hrest' =>
          cases hmove.symm.trans hmove'
          cases hchar.symm.trans hchar'
          exact ih hrest'
      | go _ hmove' => cases hmove.symm.trans hmove'
  | go hnew hmove hbefore hnext ih =>
      cases hother with
      | finish => cases hmove
      | take _ hmove' => cases hmove.symm.trans hmove'
      | go _ hmove' hbefore' hnext' =>
          have hbranches := Move.go.inj (hmove.symm.trans hmove')
          cases eq_of_first hbranches hbefore hnext.not_fails hbefore' hnext'.not_fails
          exact ih hnext'

theorem Trace.follow_origin (trace : Trace) (passing : Option Mark) (position : Nat) :
    (trace.follow passing position).origin = trace.origin := by
  cases passing <;> rfl

theorem Finds.start_eq (h : Finds subject path todo position trace found) :
    found.start = trace.origin := by
  induction h with
  | finish => rfl
  | take _ _ _ _ _ ih => exact ih
  | go _ _ _ _ ih => rw [ih, Trace.follow_origin]

end Pattern

end DocMarkup
