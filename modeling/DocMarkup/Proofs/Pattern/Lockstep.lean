import DocMarkup.Proofs.Pattern.Backtracking

/-!
Advancing all ways together finds what backtracking finds.

What a frontier has visited either fails or is on the way that is being explored. So a todo
that is visited again fails as well, and nothing is lost when it is given up.
-/

namespace DocMarkup

namespace Pattern

variable {subject : Subject} {position : Nat}

def Thread.Fails (subject : Subject) (position : Nat) : Thread → Prop
  | .complete _ => False
  | .waiting set todo _ => ∀ char, subject.text[position]? = some char →
      set.contains char = true → Pattern.Fails subject [] todo (position + 1)

inductive Thread.Finds (subject : Subject) (position : Nat) : Thread → Match → Prop
  | complete {trace : Trace} : Finds subject position (.complete trace) (trace.finish position)
  | waiting {set : CharSet} {todo : Todo} {trace : Trace} {char : Char} {found : Match}
      (hchar : subject.text[position]? = some char) (hset : set.contains char = true)
      (hrest : Pattern.Finds subject [] todo (position + 1) trace found) :
      Finds subject position (.waiting set todo trace) found

/-- The first of the threads that does not fail gives a match. -/
inductive Lead (subject : Subject) (position : Nat) : List Thread → Match → Prop
  | first {thread : Thread} {threads : List Thread} {found : Match}
      (hfinds : thread.Finds subject position found) :
      Lead subject position (thread :: threads) found
  | later {thread : Thread} {threads : List Thread} {found : Match}
      (hfails : thread.Fails subject position) (hlater : Lead subject position threads found) :
      Lead subject position (thread :: threads) found

theorem Lead.append {threads : List Thread} {found : Match}
    (h : Lead subject position threads found) (more : List Thread) :
    Lead subject position (threads ++ more) found := by
  induction h with
  | first hfinds => exact .first hfinds
  | later hfails _ ih => exact .later hfails ih

theorem lead_of_fails {threads more : List Thread} {found : Match}
    (hfails : ∀ thread ∈ threads, thread.Fails subject position)
    (h : Lead subject position more found) : Lead subject position (threads ++ more) found := by
  induction threads with
  | nil => exact h
  | cons thread threads ih =>
      exact .later (hfails thread List.mem_cons_self)
        (ih fun other hmem => hfails other (List.mem_cons_of_mem _ hmem))

theorem hasVisited_visit {frontier : Frontier} {todo other : Todo} :
    (frontier.visit todo).hasVisited other = true ↔
      other = todo ∨ frontier.hasVisited other = true := by
  simp only [Frontier.hasVisited, Frontier.visit]
  by_cases hkey : todoKey other = todoKey todo
  · rw [hkey, Visited.contains_insert_self]
    simp
  · rw [Visited.contains_insert_of_ne _ _ _ hkey]
    have hne : other ≠ todo := fun h => hkey (h ▸ rfl)
    simp [hne]

/-- No thread leads to a match, and neither does anything that was visited. -/
structure Frontier.Settled (subject : Subject) (path : List Todo) (position : Nat)
    (frontier : Frontier) : Prop where
  threads : ∀ thread ∈ frontier.threads, thread.Fails subject position
  onPath : ∀ todo ∈ path, frontier.hasVisited todo = true
  visited : ∀ todo, frontier.hasVisited todo = true → Pattern.Fails subject path todo position

def Frontier.Leads (subject : Subject) (position : Nat) (frontier : Frontier) (found : Match) :
    Prop :=
  Lead subject position frontier.threads.reverse found

namespace Frontier

variable {path : List Todo} {frontier : Frontier} {todo : Todo}

theorem settled_empty : empty.Settled subject [] position :=
  ⟨fun _ hmem => (nomatch hmem), fun _ hmem => (nomatch hmem), fun _ h => (nomatch h)⟩

theorem Settled.visit (h : frontier.Settled subject path position) :
    (frontier.visit todo).Settled subject (todo :: path) position := by
  refine ⟨h.threads, fun other hmem => ?_, fun other hvisited => ?_⟩
  · rw [hasVisited_visit]
    exact (List.mem_cons.mp hmem).imp_right (h.onPath other)
  · rcases hasVisited_visit.mp hvisited with rfl | hvisited
    · exact .again List.mem_cons_self
    · exact (h.visited other hvisited).mono (List.subset_cons_self _ _)

theorem Settled.leave (h : frontier.Settled subject (todo :: path) position)
    (hfails : Pattern.Fails subject path todo position) :
    frontier.Settled subject path position :=
  ⟨h.threads, fun other hmem => h.onPath other (List.mem_cons_of_mem _ hmem),
    fun other hvisited => hfails.cut (h.visited other hvisited) (List.Subset.refl _)
      (List.Subset.refl _)⟩

theorem Settled.emit {thread : Thread} (h : frontier.Settled subject path position)
    (hfails : thread.Fails subject position) :
    (frontier.emit thread).Settled subject path position := by
  refine ⟨fun other hmem => ?_, h.onPath, h.visited⟩
  rcases List.mem_cons.mp hmem with rfl | hmem
  · exact hfails
  · exact h.threads other hmem

theorem Settled.leads_emit {thread : Thread} {found : Match}
    (h : frontier.Settled subject path position) (hfinds : thread.Finds subject position found) :
    (frontier.emit thread).Leads subject position found := by
  rw [Leads, Frontier.emit, List.reverse_cons]
  exact lead_of_fails (fun other hmem => h.threads other (List.mem_reverse.mp hmem))
    (.first hfinds)

theorem Leads.grow {after : Frontier} {found : Match} (h : frontier.Leads subject position found)
    (hgrows : ∃ more, after.threads = more ++ frontier.threads) :
    after.Leads subject position found := by
  obtain ⟨more, hmore⟩ := hgrows
  rw [Leads, hmore, List.reverse_append]
  exact Lead.append h _

end Frontier

/-- Every todo that is left at a position either fails or is found. -/
def Decided (subject : Subject) (position : Nat) : Prop :=
  ∀ todo trace, Fails subject [] todo position ∨ ∃ found, Finds subject [] todo position trace found

/-- What became of branches that were explored one after the other. -/
inductive Explored (subject : Subject) (position : Nat) (path : List Todo)
    (branches : List Branch) (trace : Trace) (after : Frontier) : Prop
  | fails (hbranches : ∀ branch ∈ branches, Fails subject path branch.2 position)
      (hafter : after.Settled subject path position)
  | finds {before later : List Branch} {passing : Option Mark} {todo : Todo} {found : Match}
      (hbranches : branches = before ++ (passing, todo) :: later)
      (hbefore : ∀ branch ∈ before, Fails subject path branch.2 position)
      (hfinds : Finds subject path todo position (trace.follow passing position) found)
      (hafter : after.Leads subject position found)

theorem Explored.single {path : List Todo} {passing : Option Mark} {todo : Todo} {trace : Trace}
    {after : Frontier} (h : Explored subject position path [(passing, todo)] trace after) :
    (Fails subject path todo position ∧ after.Settled subject path position) ∨
      ∃ found, Finds subject path todo position (trace.follow passing position) found ∧
        after.Leads subject position found := by
  cases h with
  | fails hbranches hafter => exact .inl ⟨hbranches (passing, todo) List.mem_cons_self, hafter⟩
  | finds heq hbefore hfinds hafter =>
      obtain ⟨rfl, heq⟩ | ⟨_, _, hnil⟩ := List.cons_eq_append_iff.mp heq
      · cases heq
        exact .inr ⟨_, hfinds, hafter⟩
      · simp at hnil

theorem Explored.of_fails {path : List Todo} {passing : Option Mark} {todo : Todo} {trace : Trace}
    {after : Frontier} (hfails : Fails subject path todo position)
    (hafter : after.Settled subject path position) :
    Explored subject position path [(passing, todo)] trace after := by
  refine .fails (fun branch hmem => ?_) hafter
  rwa [List.mem_singleton.mp hmem]

theorem Explored.of_finds {path : List Todo} {passing : Option Mark} {todo : Todo} {trace : Trace}
    {after : Frontier} {found : Match}
    (hfinds : Finds subject path todo position (trace.follow passing position) found)
    (hafter : after.Leads subject position found) :
    Explored subject position path [(passing, todo)] trace after :=
  .finds (List.nil_append _).symm (fun _ hmem => nomatch hmem) hfinds hafter

/-- The continuation explores the branches on every path that has `base` on it. -/
structure Explores (subject : Subject) (position : Nat) (base : List Todo) (next : Continuation)
    (branches : List Branch) : Prop where
  grows : ∀ trace frontier, ∃ more, (next trace frontier).threads = more ++ frontier.threads
  explored : ∀ ⦃path : List Todo⦄, base ⊆ path → ∀ (trace : Trace) ⦃frontier : Frontier⦄,
    frontier.Settled subject path position →
      Explored subject position path branches trace (next trace frontier)

namespace Explores

variable {base wider : List Todo} {next round : Continuation} {branches others : List Branch}
  {todo rest : Todo}

theorem weaken (h : Explores subject position base next branches) (hbase : base ⊆ wider) :
    Explores subject position wider next branches :=
  ⟨h.grows, fun _ hpath => h.explored (List.Subset.trans hbase hpath)⟩

theorem none : Explores subject position base (fun _ frontier => frontier) [] :=
  ⟨fun _ _ => ⟨[], rfl⟩, fun _ _ _ _ hsettled => .fails (fun _ hmem => nomatch hmem) hsettled⟩

theorem again : Explores subject position [todo] (fun _ frontier => frontier)
    [(Option.none, todo)] := by
  refine ⟨fun _ _ => ⟨[], rfl⟩, fun path hpath trace frontier hsettled => .of_fails ?_ hsettled⟩
  exact .again (hpath List.mem_cons_self)

theorem append (hnext : Explores subject position base next branches)
    (hround : Explores subject position base round others) :
    Explores subject position base (fun trace frontier => round trace (next trace frontier))
      (branches ++ others) := by
  constructor
  · intro trace frontier
    obtain ⟨more, hmore⟩ := hround.grows trace (next trace frontier)
    obtain ⟨more', hmore'⟩ := hnext.grows trace frontier
    exact ⟨more ++ more', by rw [hmore, hmore', List.append_assoc]⟩
  · intro path hpath trace frontier hsettled
    cases hnext.explored hpath trace hsettled with
    | fails hbranches hafter =>
        cases hround.explored hpath trace hafter with
        | fails hothers hafter =>
            refine .fails (fun branch hmem => ?_) hafter
            exact (List.mem_append.mp hmem).elim (hbranches branch) (hothers branch)
        | @finds before later passing todo found heq hbefore hfinds hafter =>
            have hsplit :
                branches ++ others = (branches ++ before) ++ (passing, todo) :: later := by
              rw [heq, List.append_assoc]
            refine .finds hsplit (fun branch hmem => ?_) hfinds hafter
            exact (List.mem_append.mp hmem).elim (hbranches branch) (hbefore branch)
    | @finds before later passing todo found heq hbefore hfinds hafter =>
        exact .finds (by rw [heq, List.append_assoc, List.cons_append]) hbefore hfinds
          (hafter.grow (hround.grows trace _))

theorem pass {passed : Mark} (h : Explores subject position base next [(Option.none, rest)]) :
    Explores subject position base
      (fun trace frontier => next (trace.pass passed position) frontier) [(some passed, rest)] := by
  refine ⟨fun trace frontier => h.grows _ frontier, fun path hpath trace frontier hsettled => ?_⟩
  obtain ⟨hfails, hafter⟩ | ⟨found, hfinds, hafter⟩ :=
    (h.explored hpath (trace.pass passed position) hsettled).single
  · exact .of_fails hfails hafter
  · exact .of_finds hfinds hafter

theorem visiting {explore : Continuation}
    (hgrows : ∀ trace frontier, ∃ more, (explore trace frontier).threads = more ++ frontier.threads)
    (h : ∀ ⦃path : List Todo⦄, base ⊆ path → ∀ (trace : Trace) ⦃frontier : Frontier⦄, todo ∉ path →
      frontier.Settled subject (todo :: path) position →
        Explored subject position path [(Option.none, todo)] trace (explore trace frontier)) :
    Explores subject position base (Pattern.visiting todo explore) [(Option.none, todo)] := by
  constructor
  · intro trace frontier
    unfold Pattern.visiting
    split
    · exact ⟨[], rfl⟩
    · exact hgrows trace (frontier.visit todo)
  · intro path hpath trace frontier hsettled
    unfold Pattern.visiting
    split
    · next hvisited => exact .of_fails (hsettled.visited todo hvisited) hsettled
    · next hnew => exact h hpath trace (fun hmem => hnew (hsettled.onPath todo hmem)) hsettled.visit

theorem go (hmove : move (subject.around position) todo = .go branches)
    (h : Explores subject position (todo :: base) next branches) :
    Explores subject position base (Pattern.visiting todo next) [(Option.none, todo)] := by
  refine visiting h.grows fun path hpath trace frontier hnew hsettled => ?_
  cases h.explored (List.cons_subset_cons todo hpath) trace hsettled with
  | fails hbranches hafter =>
      have hfails : Fails subject path todo position := .go hmove hbranches
      exact .of_fails hfails (hafter.leave hfails)
  | finds heq hbefore hfinds hafter =>
      exact .of_finds (.go hnew (heq ▸ hmove) hbefore hfinds) hafter

theorem finish : Explores subject position base
    (Pattern.visiting [] fun trace frontier => frontier.emit (.complete trace))
    [(Option.none, [])] := by
  refine visiting (fun _ _ => ⟨[_], rfl⟩) fun path hpath trace frontier hnew hsettled => ?_
  exact .of_finds (.finish hnew) (hsettled.leads_emit .complete)

theorem take {set : CharSet} (hmove : move (subject.around position) todo = .take set rest)
    (hnext : ∀ char, subject.text[position]? = some char → Decided subject (position + 1)) :
    Explores subject position base
      (Pattern.visiting todo fun trace frontier => frontier.emit (.waiting set rest trace))
      [(Option.none, todo)] := by
  refine visiting (fun _ _ => ⟨[_], rfl⟩) fun path hpath trace frontier hnew hsettled => ?_
  have hcases : (∀ char, subject.text[position]? = some char → set.contains char = true →
        Fails subject [] rest (position + 1)) ∨
      ∃ char found, subject.text[position]? = some char ∧ set.contains char = true ∧
        Finds subject [] rest (position + 1) trace found := by
    by_cases hchar : ∃ char, subject.text[position]? = some char ∧ set.contains char = true
    · obtain ⟨char, hchar, hset⟩ := hchar
      rcases hnext char hchar rest trace with hfails | ⟨found, hfinds⟩
      · exact .inl fun _ _ _ => hfails
      · exact .inr ⟨char, found, hchar, hset, hfinds⟩
    · exact .inl fun char hchar' hset => absurd ⟨char, hchar', hset⟩ hchar
  rcases hcases with hrest | ⟨char, found, hchar, hset, hfinds⟩
  · have hfails : Fails subject path todo position := .take hmove hrest
    have hthread : (Thread.waiting set rest trace).Fails subject position := hrest
    exact .of_fails hfails ((hsettled.emit hthread).leave hfails)
  · exact .of_finds (.take hnew hmove hchar hset hfinds)
      (hsettled.leads_emit (.waiting hchar hset hfinds))

theorem loop {greedy : Bool} {stop : Branch} {more : Branch}
    (hround : Explores subject position base round [more])
    (hnext : Explores subject position base next [stop]) :
    Explores subject position base (enterLoop greedy round next) (inOrder greedy more stop) := by
  cases greedy with
  | true => exact hround.append hnext
  | false => exact hnext.append hround

end Explores

/-- Entering the body explores it in front of what is left. -/
def EntersAs (subject : Subject) (position : Nat) (body : Pattern) (entry : Entry) : Prop :=
  ∀ (label : Label) ⦃base : List Todo⦄ ⦃rest : Todo⦄ ⦃next : Continuation⦄,
    Explores subject position base next [(none, rest)] →
      Explores subject position base (entry label rest next) [(none, ⟨label, body⟩ :: rest)]

section

variable {base : List Todo} {rest : Todo} {next : Continuation} {entry : Entry} {body : Pattern}

theorem EntersAs.times (hbody : EntersAs subject position body entry)
    (hnext : Explores subject position base next [(none, rest)]) {count : Nat} {label : Label} :
    ∃ branches, move (subject.around position) (⟨label, times count body⟩ :: rest) =
        .go branches ∧
      Explores subject position base (enterTimes body entry rest next count label) branches := by
  induction count generalizing base label with
  | zero => exact ⟨_, rfl, hnext⟩
  | succ count ih =>
      obtain ⟨branches, hmove, hrest⟩ := ih (hnext.weaken (List.subset_cons_self _ _))
      exact ⟨_, rfl, hbody _ (.go hmove hrest)⟩

theorem EntersAs.upTo (hbody : EntersAs subject position body entry)
    (hnext : Explores subject position base next [(none, rest)]) {greedy : Bool} {count : Nat}
    {label : Label} :
    ∃ branches, move (subject.around position) (⟨label, upTo greedy count body⟩ :: rest) =
        .go branches ∧
      Explores subject position base (enterUpTo greedy body entry rest next count label)
        branches := by
  induction count generalizing base label with
  | zero => exact ⟨_, rfl, hnext⟩
  | succ count ih =>
      obtain ⟨branches, hmove, hrest⟩ := ih (hnext.weaken (List.subset_cons_self _ _))
      exact ⟨_, rfl, (hbody _ (.go hmove hrest)).loop hnext⟩

theorem entersAs_enter
    (hnext : ∀ char, subject.text[position]? = some char → Decided subject (position + 1))
    (pattern : Pattern) :
    EntersAs subject position pattern
      fun label rest next => enter (subject.around position) position pattern label rest next := by
  induction pattern with
  | empty =>
      intro label base rest next h
      unfold enter
      exact .go rfl (h.weaken (List.subset_cons_self _ _))
  | oneOf set =>
      intro label base rest next h
      unfold enter
      exact .take rfl hnext
  | assertion claim =>
      intro label base rest next h
      unfold enter
      refine .go rfl ?_
      simp only
      split
      · exact h.weaken (List.subset_cons_self _ _)
      · exact .none
  | mark passed =>
      intro label base rest next h
      unfold enter
      exact .go rfl (h.weaken (List.subset_cons_self _ _)).pass
  | seq first second ihFirst ihSecond =>
      intro label base rest next h
      unfold enter
      exact .go rfl (ihFirst _ (ihSecond _ (h.weaken (List.subset_cons_self _ _))))
  | alt first second ihFirst ihSecond =>
      intro label base rest next h
      unfold enter
      have hwider := h.weaken (List.subset_cons_self (⟨label, alt first second⟩ :: rest) base)
      exact .go rfl ((ihFirst _ hwider).append (ihSecond _ hwider))
  | times count body ih =>
      intro label base rest next h
      unfold enter
      obtain ⟨branches, hmove, hbranches⟩ := ih.times (h.weaken (List.subset_cons_self _ _))
      exact .go hmove hbranches
  | upTo greedy count body ih =>
      intro label base rest next h
      unfold enter
      obtain ⟨branches, hmove, hbranches⟩ := ih.upTo (h.weaken (List.subset_cons_self _ _))
      exact .go hmove hbranches
  | loop greedy body ih =>
      intro label base rest next h
      unfold enter
      -- A round that takes nothing comes back to the loop, which is on the path.
      refine .go rfl (.loop (ih _ (Explores.again.weaken ?_)) (h.weaken ?_))
      · exact List.cons_subset_cons _ (List.nil_subset _)
      · exact List.subset_cons_self _ _
  | oneOrMore greedy body ih =>
      intro label base rest next h
      unfold enter
      refine .go rfl (ih _ (.go rfl (.loop (ih _ (Explores.again.weaken ?_)) (h.weaken ?_))))
      · exact List.cons_subset_cons _ (List.nil_subset _)
      · exact List.Subset.trans (List.subset_cons_self _ _) (List.subset_cons_self _ _)

end

theorem explores_enterAll
    (hnext : ∀ char, subject.text[position]? = some char → Decided subject (position + 1))
    (todo : Todo) :
    Explores subject position [] (enterAll (subject.around position) position todo)
      [(none, todo)] := by
  induction todo with
  | nil => exact .finish
  | cons part rest ih => exact entersAs_enter hnext part.pattern part.label ih

theorem decided_of_next
    (hnext : ∀ char, subject.text[position]? = some char → Decided subject (position + 1)) :
    Decided subject position := by
  intro todo trace
  obtain ⟨hfails, -⟩ | ⟨found, hfinds, -⟩ := ((explores_enterAll hnext todo).explored
    (List.nil_subset []) trace Frontier.settled_empty).single
  · exact .inl hfails
  · exact .inr ⟨found, hfinds⟩

theorem decided (subject : Subject) (position : Nat) : Decided subject position := by
  -- Taking a character leads to the next position, so what is left of the text gets shorter.
  induction hleft : subject.text.length - position generalizing position with
  | zero =>
      refine decided_of_next fun char hchar => ?_
      have hlt := (List.getElem?_eq_some_iff.mp hchar).1
      omega
  | succ left ih => exact decided_of_next fun _ _ => ih (position + 1) (by omega)

theorem enterAll_explored (todo : Todo) (trace : Trace) {frontier : Frontier}
    (hsettled : frontier.Settled subject [] position) :
    (Fails subject [] todo position ∧
        (enterAll (subject.around position) position todo trace frontier).Settled subject []
          position) ∨
      ∃ found, Finds subject [] todo position trace found ∧
        (enterAll (subject.around position) position todo trace frontier).Leads subject position
          found :=
  ((explores_enterAll (fun _ _ => decided subject _) todo).explored (List.nil_subset []) trace
    hsettled).single

theorem enterAll_grows (subject : Subject) (position : Nat) (todo : Todo) (trace : Trace)
    (frontier : Frontier) :
    ∃ more, (enterAll (subject.around position) position todo trace frontier).threads =
      more ++ frontier.threads :=
  (explores_enterAll (fun _ _ => decided subject _) todo).grows trace frontier

section

variable {char : Char} {threads : List Thread} {frontier : Frontier} {found : Match}

theorem advance_grows (subject : Subject) (position : Nat) (char : Char) (threads : List Thread)
    (frontier : Frontier) :
    ∃ more, (advance char (subject.around position) position threads frontier).threads =
      more ++ frontier.threads := by
  induction threads generalizing frontier with
  | nil => exact ⟨[], rfl⟩
  | cons thread threads ih =>
      cases thread with
      | complete trace => exact ⟨[], rfl⟩
      | waiting set todo trace =>
          rw [advance]
          split
          · obtain ⟨more, hmore⟩ := ih (enterAll (subject.around position) position todo trace
              frontier)
            obtain ⟨more', hmore'⟩ := enterAll_grows subject position todo trace frontier
            exact ⟨more ++ more', by rw [hmore, hmore', List.append_assoc]⟩
          · exact ih frontier

theorem advance_waiting (hchar : subject.text[position]? = some char) {set : CharSet} {todo : Todo}
    {trace : Trace} (hfails : (Thread.waiting set todo trace).Fails subject position)
    (hsettled : frontier.Settled subject [] (position + 1)) :
    (if set.contains char then
      enterAll (subject.around (position + 1)) (position + 1) todo trace frontier
    else frontier).Settled subject [] (position + 1) := by
  split
  · next hset =>
      obtain ⟨-, hafter⟩ | ⟨found, hfinds, -⟩ := enterAll_explored todo trace hsettled
      · exact hafter
      · exact absurd (hfails char hchar hset) hfinds.not_fails
  · exact hsettled

theorem advance_settled (hchar : subject.text[position]? = some char)
    (hfails : ∀ thread ∈ threads, thread.Fails subject position)
    (hsettled : frontier.Settled subject [] (position + 1)) :
    (advance char (subject.around (position + 1)) (position + 1) threads frontier).Settled
      subject [] (position + 1) := by
  induction threads generalizing frontier with
  | nil => exact hsettled
  | cons thread threads ih =>
      cases thread with
      | complete trace => exact hsettled
      | waiting set todo trace =>
          exact ih (fun other hmem => hfails other (List.mem_cons_of_mem _ hmem))
            (advance_waiting hchar (hfails _ List.mem_cons_self) hsettled)

theorem advance_lead (hchar : subject.text[position]? = some char)
    (h : Lead subject position threads found)
    (hsettled : frontier.Settled subject [] (position + 1)) :
    ((completed? threads).map (·.finish position) = some found ∧
        (advance char (subject.around (position + 1)) (position + 1) threads frontier).Settled
          subject [] (position + 1)) ∨
      (advance char (subject.around (position + 1)) (position + 1) threads frontier).Leads
        subject (position + 1) found := by
  induction h generalizing frontier with
  | first hfinds =>
      cases hfinds with
      | complete => exact .inl ⟨rfl, hsettled⟩
      | @waiting set todo trace taken found htaken hset hrest =>
          cases htaken.symm.trans hchar
          refine .inr ?_
          rw [advance, if_pos hset]
          obtain ⟨hfails, -⟩ | ⟨other, hother, hafter⟩ := enterAll_explored todo trace hsettled
          · exact absurd hfails hrest.not_fails
          · rw [hrest.unique hother]
            exact hafter.grow (advance_grows subject _ _ _ _)
  | @later thread threads found hfails _ ih =>
      cases thread with
      | complete trace => exact hfails.elim
      | waiting set todo trace => exact ih (advance_waiting hchar hfails hsettled)

theorem completed?_eq_none (hfails : ∀ thread ∈ threads, thread.Fails subject position) :
    completed? threads = none := by
  induction threads with
  | nil => rfl
  | cons thread threads ih =>
      cases thread with
      | complete trace => exact (hfails _ List.mem_cons_self).elim
      | waiting set todo trace =>
          exact ih fun other hmem => hfails other (List.mem_cons_of_mem _ hmem)

theorem Lead.completed (h : Lead subject position threads found)
    (hend : subject.text[position]? = none) :
    (completed? threads).map (·.finish position) = some found := by
  induction h with
  | first hfinds =>
      cases hfinds with
      | complete => rfl
      | waiting hchar => cases hchar.symm.trans hend
  | @later thread threads found hfails _ ih =>
      cases thread with
      | complete trace => exact hfails.elim
      | waiting set todo trace => exact ih

theorem latest_of_completed {earlier : Option Match}
    (h : (completed? threads).map (·.finish position) = some found) :
    latest threads position earlier = some found := by
  obtain ⟨trace, htrace, rfl⟩ := Option.map_eq_some_iff.mp h
  simp [latest, htrace]

theorem latest_of_fails {earlier : Option Match}
    (hfails : ∀ thread ∈ threads, thread.Fails subject position) :
    latest threads position earlier = earlier := by
  simp [latest, completed?_eq_none hfails]

theorem getElem?_of_drop {rest : List Char} (h : subject.text.drop position = char :: rest) :
    subject.text[position]? = some char := by
  rw [← List.head?_drop, h, List.head?_cons]

theorem drop_succ_of_drop {rest : List Char} (h : subject.text.drop position = char :: rest) :
    subject.text.drop (position + 1) = rest := by
  rw [← List.drop_drop, h, List.drop_one, List.tail_cons]

theorem around_succ_of_drop {rest : List Char} (h : subject.text.drop position = char :: rest) :
    subject.around (position + 1) = ⟨some char, rest.head?⟩ := by
  rw [Subject.around, ← drop_succ_of_drop h, List.head?_drop]
  simp [getElem?_of_drop h]

variable {text : List Char} {earlier : Option Match}

theorem follow_fails (htext : subject.text.drop position = text)
    (hfails : ∀ thread ∈ threads, thread.Fails subject position) :
    follow none threads position earlier text = earlier := by
  induction text generalizing threads position with
  | nil => exact latest_of_fails hfails
  | cons char rest ih =>
      simp only [follow, latest_of_fails hfails, ite_self]
      split
      · rfl
      · rw [← around_succ_of_drop htext]
        have hafter := advance_settled (getElem?_of_drop htext) hfails Frontier.settled_empty
        exact ih (drop_succ_of_drop htext) fun thread hmem =>
          hafter.threads thread (List.mem_reverse.mp hmem)

theorem start_grows (pattern : Pattern) (frontier : Frontier) :
    ∃ more, (pattern.start (subject.around position) position frontier).threads =
      more ++ frontier.threads :=
  enterAll_grows subject position _ _ frontier

theorem follow_lead {restart : Option Pattern} (htext : subject.text.drop position = text)
    (h : Lead subject position threads found) :
    follow restart threads position earlier text = some found := by
  induction text generalizing restart threads position earlier with
  | nil =>
      have hend : subject.text[position]? = none := by rw [← List.head?_drop, htext, List.head?_nil]
      exact latest_of_completed (h.completed hend)
  | cons char rest ih =>
      have hnonempty : threads.isEmpty = false := by cases h <;> rfl
      simp only [follow, hnonempty, Bool.false_and, Bool.false_eq_true, if_false]
      rw [← around_succ_of_drop htext]
      obtain ⟨hcompleted, hafter⟩ | hafter :=
        advance_lead (getElem?_of_drop htext) h Frontier.settled_empty
      · rw [latest_of_completed hcompleted]
        exact follow_fails (drop_succ_of_drop htext) fun thread hmem =>
          hafter.threads thread (List.mem_reverse.mp hmem)
      · generalize (if (latest threads position earlier).isSome then none else restart) = again
        cases again with
        | none => exact ih (drop_succ_of_drop htext) hafter
        | some pattern =>
            exact ih (drop_succ_of_drop htext) (hafter.grow (start_grows pattern _))

end

/-- What comes of trying a pattern at one position. -/
inductive Tried (subject : Subject) (pattern : Pattern) (position : Nat) : Option Match → Prop
  | fails (h : Fails subject [] [⟨.whole, pattern⟩] position) :
      Tried subject pattern position none
  | finds {found : Match}
      (h : Finds subject [] [⟨.whole, pattern⟩] position ⟨position, []⟩ found) :
      Tried subject pattern position (some found)

/-- What comes of trying a pattern at a position and, as long as it fails, at those after it. -/
inductive Searched (subject : Subject) (pattern : Pattern) : Nat → Option Match → Prop
  | past {position : Nat} (h : subject.text.length < position) :
      Searched subject pattern position none
  | next {position : Nat} {result : Option Match} (hle : position ≤ subject.text.length)
      (htried : Tried subject pattern position none)
      (hnext : Searched subject pattern (position + 1) result) :
      Searched subject pattern position result
  | here {position : Nat} {found : Match} (hle : position ≤ subject.text.length)
      (htried : Tried subject pattern position (some found)) :
      Searched subject pattern position (some found)

variable {pattern : Pattern}

theorem Tried.unique {result other : Option Match} (h : Tried subject pattern position result)
    (hother : Tried subject pattern position other) : result = other := by
  cases h with
  | fails hfails =>
      cases hother with
      | fails => rfl
      | finds hfinds => exact absurd hfails hfinds.not_fails
  | finds hfinds =>
      cases hother with
      | fails hfails => exact absurd hfails hfinds.not_fails
      | finds hother => rw [hfinds.unique hother]

theorem start_explored (pattern : Pattern) {frontier : Frontier}
    (hsettled : frontier.Settled subject [] position) :
    (Tried subject pattern position none ∧
        (pattern.start (subject.around position) position frontier).Settled subject [] position) ∨
      ∃ found, Tried subject pattern position (some found) ∧
        (pattern.start (subject.around position) position frontier).Leads subject position
          found := by
  obtain ⟨hfails, hafter⟩ | ⟨found, hfinds, hafter⟩ :=
    enterAll_explored [⟨.whole, pattern⟩] ⟨position, []⟩ hsettled
  · exact .inl ⟨.fails hfails, hafter⟩
  · exact .inr ⟨found, .finds hfinds, hafter⟩

theorem follow_searched {threads : List Thread} {text : List Char}
    (htext : subject.text.drop position = text) (hle : position ≤ subject.text.length)
    (hfails : ∀ thread ∈ threads, thread.Fails subject position) :
    Searched subject pattern (position + 1) (follow (some pattern) threads position none text) := by
  induction text generalizing threads position with
  | nil =>
      rw [List.drop_eq_nil_iff] at htext
      rw [follow, latest_of_fails hfails]
      exact .past (by omega)
  | cons char rest ih =>
      have hlt := (List.getElem?_eq_some_iff.mp (getElem?_of_drop htext)).1
      simp only [follow, latest_of_fails hfails, Option.isSome_none, Option.isNone_some,
        Bool.and_false, Bool.false_eq_true, if_false]
      rw [← around_succ_of_drop htext]
      obtain ⟨htried, hafter⟩ | ⟨found, htried, hafter⟩ := start_explored pattern
        (advance_settled (getElem?_of_drop htext) hfails Frontier.settled_empty)
      · refine .next hlt htried (ih (drop_succ_of_drop htext) hlt fun thread hmem => ?_)
        exact hafter.threads thread (List.mem_reverse.mp hmem)
      · rw [follow_lead (drop_succ_of_drop htext) hafter]
        exact .here hlt htried

theorem around_zero (subject : Subject) :
    subject.around 0 = ⟨subject.before, subject.text.head?⟩ := by
  simp [Subject.around, List.head?_eq_getElem?]

theorem match?_tried (pattern : Pattern) (subject : Subject) :
    Tried subject pattern 0 (pattern.match? subject.before subject.text) := by
  have hwhole : subject.text.drop 0 = subject.text := List.drop_zero
  rw [match?, initial, ← around_zero]
  obtain ⟨htried, hafter⟩ | ⟨found, htried, hafter⟩ :=
    start_explored pattern (Frontier.settled_empty : Frontier.empty.Settled subject [] 0)
  · rw [follow_fails hwhole fun thread hmem => hafter.threads thread (List.mem_reverse.mp hmem)]
    exact htried
  · rw [follow_lead hwhole hafter]
    exact htried

theorem fails_of_match? (h : pattern.match? subject.before subject.text = none) :
    Fails subject [] [⟨.whole, pattern⟩] 0 := by
  have htried := match?_tried pattern subject
  rw [h] at htried
  cases htried with
  | fails hfails => exact hfails

theorem finds_of_match? {found : Match}
    (h : pattern.match? subject.before subject.text = some found) :
    Finds subject [] [⟨.whole, pattern⟩] 0 ⟨0, []⟩ found := by
  have htried := match?_tried pattern subject
  rw [h] at htried
  cases htried with
  | finds hfinds => exact hfinds

theorem search?_searched (pattern : Pattern) (subject : Subject) :
    Searched subject pattern 0 (pattern.search? subject.before subject.text) := by
  have hwhole : subject.text.drop 0 = subject.text := List.drop_zero
  rw [search?, initial, ← around_zero]
  obtain ⟨htried, hafter⟩ | ⟨found, htried, hafter⟩ :=
    start_explored pattern (Frontier.settled_empty : Frontier.empty.Settled subject [] 0)
  · exact .next (Nat.zero_le _) htried (follow_searched hwhole (Nat.zero_le _) fun thread hmem =>
      hafter.threads thread (List.mem_reverse.mp hmem))
  · rw [follow_lead hwhole hafter]
    exact .here (Nat.zero_le _) htried

end Pattern

end DocMarkup
