import DocMarkup.Proofs.Comment.Runs
import DocMarkup.Proofs.Pattern.Greedy
import Mathlib.Data.List.Nodup

/-!
Readings that take as much as they can.

The runs of a pattern are greedy. So of all ways to read a text by them, the one that is matched
gives the first run as much as leaves a reading for the runs after it, and so on.
-/

namespace DocMarkup

namespace Comment

open Pattern (oneOf oneOrMore loop group Takes Reaches Ends Todo Label)

def Readable (runs : List Run) (text : List Char) : Prop :=
  ∃ chars values rest, Reading runs chars values ∧ text = chars ++ rest

/-- The runs read the start of the text, and each of them takes as much as it can. -/
inductive Longest : List Run → List Char → List Char → List (String × String) → Prop
  | nil {text : List Char} : Longest [] text [] []
  | cons {run : Run} {runs : List Run} {first text chars : List Char}
      {values : List (String × String)} (hrun : run.Admits first)
      (hlongest : ∀ more left, text = more ++ left → more ≠ [] → run.Admits (first ++ more) →
        ¬ Readable runs left)
      (hrest : Longest runs text chars values) :
      Longest (run :: runs) (first ++ text) (first ++ chars) (run.values first ++ values)

theorem Longest.reading {runs : List Run} {text chars : List Char}
    {values : List (String × String)} (h : Longest runs text chars values) :
    Reading runs chars values := by
  induction h with
  | nil => exact .nil
  | cons hrun _ _ ih => exact .cons hrun ih

section

variable {run : Run} {runs : List Run} {text chars : List Char} {values : List (String × String)}

theorem Longest.exists_rest (h : Longest runs text chars values) : ∃ rest, text = chars ++ rest := by
  induction h with
  | @nil text => exact ⟨text, rfl⟩
  | cons _ _ _ ih =>
      obtain ⟨rest, htext⟩ := ih
      exact ⟨rest, by rw [htext, List.append_assoc]⟩

theorem Longest.exists_sign {char : Char} (h : Longest (.sign char :: runs) text chars values) :
    ∃ left later, text = char :: left ∧ chars = char :: later ∧
      Longest runs left later values := by
  cases h with
  | cons hrun _ hrest =>
      rw [admits_sign_iff.mp hrun]
      exact ⟨_, _, rfl, rfl, hrest⟩

theorem prefix_of_longest {first left other rest : List Char}
    (hlongest : ∀ more others, left = more ++ others → more ≠ [] → run.Admits (first ++ more) →
      ¬ Readable runs others)
    (heq : first ++ left = other ++ rest) (hother : run.Admits other)
    (hreadable : Readable runs rest) : other <+: first := by
  rcases List.append_eq_append_iff.mp heq with ⟨more, rfl, hleft⟩ | ⟨more, rfl, -⟩
  · by_cases hmore : more = []
    · simp [hmore]
    · exact absurd hreadable (hlongest more rest hleft hmore hother)
  · exact List.prefix_append other more

theorem Longest.not_contains_next (h : Longest (runs ++ [run]) text chars values)
    (hamount : run.amount ≠ .one) {char : Char} {rest : List Char}
    (htext : text = chars ++ char :: rest) : run.set.contains char = false := by
  induction runs generalizing text chars values with
  | nil =>
      cases h with
      | @cons _ _ first left _ _ hrun hlongest hrest =>
          cases hrest
          rw [List.append_nil] at htext
          have hleft := List.append_cancel_left htext
          apply Bool.eq_false_iff.mpr
          intro hcontains
          refine hlongest [char] rest hleft (List.cons_ne_nil _ _) ⟨?_, ?_⟩
            ⟨[], [], rest, .nil, rfl⟩
          · exact List.forall_mem_append.mpr
              ⟨hrun.contains, List.forall_mem_singleton.mpr hcontains⟩
          · cases hcase : run.amount with
            | one => exact absurd hcase hamount
            | some => exact List.append_ne_nil_of_right_ne_nil _ (List.cons_ne_nil _ _)
            | any => trivial
  | cons _ runs ih =>
      cases h with
      | cons _ _ hrest =>
          rw [List.append_assoc] at htext
          exact ih hrest (List.append_cancel_left htext)

theorem Reading.exists_cons (h : Reading (run :: runs) chars values) (hamount : run.amount ≠ .one)
    {char : Char} (hchar : run.set.contains char = true) :
    ∃ values, Reading (run :: runs) (char :: chars) values := by
  cases h with
  | @cons _ _ first _ _ hrun hrest =>
      have hadmits : run.Admits (char :: first) := by
        refine ⟨List.forall_mem_cons.mpr ⟨hchar, hrun.contains⟩, ?_⟩
        cases hcase : run.amount with
        | one => exact absurd hcase hamount
        | some => exact List.cons_ne_nil _ _
        | any => trivial
      exact ⟨_, .cons hadmits hrest⟩

end

section

variable {subject : Subject} {set : CharSet} {run : Run} {runs : List Run}
  {chars : List Char} {start stop : Nat}

theorem Spans.cons {text chars : List Char} {char : Char}
    (h : Spans text start stop (char :: chars)) :
    text[start]? = some char ∧ Spans text (start + 1) stop chars := by
  have hdrop := h.drop_eq
  refine ⟨?_, ?_, ?_⟩
  · rw [← List.head?_drop, hdrop]
    rfl
  · rw [← List.drop_drop, hdrop]
    rfl
  · rw [h.stop_eq, List.length_cons, Nat.add_assoc, Nat.add_comm 1]

theorem takes_loop_of_spans (hset : ∀ char ∈ chars, set.contains char = true)
    (h : Spans subject.text start stop chars) :
    Takes subject (loop true (oneOf set)) start stop [] := by
  induction chars generalizing start with
  | nil =>
      rw [h.stop_eq]
      exact .loopEnd
  | cons char chars ih =>
      obtain ⟨hchar, hrest⟩ := h.cons
      obtain ⟨hcontains, hset⟩ := List.forall_mem_cons.mp hset
      exact .loopRound (.oneOf hchar hcontains) (ih hset hrest)

theorem Run.takes_body (hadmits : run.Admits chars) (h : Spans subject.text start stop chars) :
    Takes subject run.body start stop [] := by
  obtain ⟨set, amount, group?⟩ := run
  obtain ⟨hset, hallows⟩ := hadmits
  cases amount with
  | one =>
      obtain ⟨char, rfl⟩ := List.length_eq_one_iff.mp hallows
      obtain ⟨hchar, hnil⟩ := h.cons
      rw [hnil.stop_eq]
      exact .oneOf hchar (hset char List.mem_cons_self)
  | some =>
      obtain ⟨char, chars, rfl⟩ := List.exists_cons_of_ne_nil hallows
      obtain ⟨hchar, hrest⟩ := h.cons
      obtain ⟨hcontains, hset⟩ := List.forall_mem_cons.mp hset
      exact .oneOrMore (.oneOf hchar hcontains) (takes_loop_of_spans hset hrest)
  | any => exact takes_loop_of_spans hset h

theorem Run.takes_pattern (hadmits : run.Admits chars)
    (h : Spans subject.text start stop chars) :
    ∃ passed, Takes subject run.pattern start stop passed := by
  have hbody := Run.takes_body hadmits h
  unfold Run.pattern
  cases run.group? with
  | none => exact ⟨_, hbody⟩
  | some name => exact ⟨_, .seq .pass (.seq hbody .pass)⟩

theorem Spans.of_drop {text first rest : List Char} (h : text.drop start = first ++ rest) :
    Spans text start (start + first.length) first := by
  refine ⟨?_, rfl⟩
  rw [← List.drop_drop, h, List.drop_left]

theorem takes_of_reading {values : List (String × String)} (h : Reading runs chars values)
    (hspans : Spans subject.text start stop chars) :
    ∃ passed, Takes subject (sequence (runs.map Run.pattern)) start stop passed := by
  induction h generalizing start with
  | nil =>
      rw [hspans.stop_eq]
      exact ⟨_, .empty⟩
  | @cons run runs first rest later hrun hrest ih =>
      have hfirst := Spans.of_drop (hspans.drop_eq.trans (List.append_assoc ..))
      have hlast : Spans subject.text (start + first.length) stop rest := by
        refine ⟨?_, ?_⟩
        · rw [← List.drop_drop, hspans.drop_eq, List.append_assoc, List.drop_left]
        · rw [hspans.stop_eq, List.length_append, Nat.add_assoc]
      obtain ⟨_, hfirst⟩ := Run.takes_pattern hrun hfirst
      obtain ⟨_, hlast⟩ := ih hlast
      cases runs with
      | nil =>
          cases hlast
          exact ⟨_, hfirst⟩
      | cons next runs => exact ⟨_, .seq hfirst hlast⟩

theorem Readable.ends (h : Readable runs (subject.text.drop start)) (label : Label) :
    Ends subject [⟨label, sequence (runs.map Run.pattern)⟩] start := by
  obtain ⟨chars, values, rest, hreading, htext⟩ := h
  obtain ⟨_, htakes⟩ := takes_of_reading hreading (Spans.of_drop htext)
  exact htakes.ends ⟨0, .finish⟩

theorem Readable.takes (h : Readable runs subject.text) :
    ∃ stop passed, Takes subject (sequence (runs.map Run.pattern)) 0 stop passed := by
  obtain ⟨chars, values, rest, hreading, htext⟩ := h
  rw [← List.drop_zero (l := subject.text)] at htext
  exact ⟨_, takes_of_reading hreading (Spans.of_drop htext)⟩

theorem Readable.match?_ne_none (h : Readable runs subject.text) :
    (sequence (runs.map Run.pattern)).match? subject.before subject.text ≠ none := by
  obtain ⟨_, _, htakes⟩ := h.takes
  exact Pattern.match?_ne_none htakes

end

/-- The run takes all that it can unless what is to be done after it would not lead to an end. -/
structure Run.Fills (run : Run) (subject : Subject) (rest : Todo) (start stop : Nat)
    (chars : List Char) : Prop where
  admits : run.Admits chars
  spans : Spans subject.text start stop chars
  longest : ∀ more last, more ≠ [] → Spans subject.text stop last more →
    run.Admits (chars ++ more) → ¬ Ends subject rest last

section

variable {subject : Subject} {set : CharSet} {run : Run} {runs : List Run} {label : Label}
  {rest : Todo} {position : Nat} {trace : Pattern.Trace} {found : Pattern.Match}

theorem Spans.lt_of_ne_nil {text chars : List Char} {start stop : Nat}
    (h : Spans text start stop chars) (hne : chars ≠ []) : start < stop := by
  have hpos := List.length_pos_iff.mpr hne
  rw [h.stop_eq]
  omega

theorem exists_fills_loop (group? : Option String)
    (h : Reaches subject (⟨label, loop true (oneOf set)⟩ :: rest) position trace found) :
    ∃ chars stop, (Run.mk set .any group?).Fills subject rest position stop chars ∧
      Reaches subject rest stop trace found := by
  obtain ⟨stop, htakes, hrest, hlongest⟩ := h.exists_stop
  obtain ⟨-, chars, hset, hspans⟩ := spans_of_takes_loop htakes
  refine ⟨chars, stop, ⟨⟨hset, trivial⟩, hspans, fun more last hne hmore hadmits => ?_⟩, hrest⟩
  exact hlongest last (hmore.lt_of_ne_nil hne) (takes_loop_of_spans
    (fun char hmem => hadmits.contains char (List.mem_append_right _ hmem)) hmore)

theorem exists_fills_body (run : Run)
    (h : Reaches subject (⟨label, run.body⟩ :: rest) position trace found) :
    ∃ chars stop, run.Fills subject rest position stop chars ∧
      Reaches subject rest stop trace found := by
  obtain ⟨set, amount, group?⟩ := run
  cases amount with
  | one =>
      obtain ⟨char, hchar, hset, hrest⟩ := h.take rfl
      obtain ⟨-, char, hset, hspans⟩ := spans_of_takes_oneOf (.oneOf hchar hset)
      refine ⟨[char], position + 1, ⟨⟨List.forall_mem_singleton.mpr hset, rfl⟩, hspans, ?_⟩, hrest⟩
      intro more last hne _ hadmits
      have hone : ([char] ++ more).length = 1 := hadmits.allows
      simp [hne] at hone
  | some =>
      obtain ⟨char, hchar, hset, hrounds⟩ := (h.only rfl).take rfl
      obtain ⟨-, char, hset, hspans⟩ := spans_of_takes_oneOf (.oneOf hchar hset)
      obtain ⟨chars, stop, hfills, hrest⟩ := exists_fills_loop group? hrounds
      refine ⟨[char] ++ chars, stop, ⟨⟨?_, List.cons_ne_nil _ _⟩, hspans.append hfills.spans, ?_⟩,
        hrest⟩
      · exact List.forall_mem_cons.mpr ⟨hset, hfills.admits.contains⟩
      · intro more last hne hmore hadmits
        refine hfills.longest more last hne hmore ⟨fun other hmem => ?_, trivial⟩
        exact hadmits.contains other (List.mem_cons_of_mem _ hmem)
  | any => exact exists_fills_loop group? h

/-- On the way the bounds of the group were passed. -/
def Recorded (text : List Char) (marks : List (Mark × Nat)) (stop : Nat)
    (value : String × String) : Prop :=
  ∃ first last, (Mark.start value.1, first) ∈ marks ∧ (Mark.stop value.1, last) ∈ marks ∧
    last ≤ stop ∧ Spans text first last value.2.toList

theorem Recorded.mono {text : List Char} {marks : List (Mark × Nat)} {middle stop : Nat}
    {value : String × String} (h : Recorded text marks middle value) (hstop : middle ≤ stop) :
    Recorded text marks stop value := by
  obtain ⟨first, last, hfirst, hlast, hle, hspans⟩ := h
  exact ⟨first, last, hfirst, hlast, Nat.le_trans hle hstop, hspans⟩

theorem exists_fills (h : Reaches subject (⟨label, run.pattern⟩ :: rest) position trace found)
    (horigin : trace.origin = 0) :
    ∃ chars stop later, run.Fills subject rest position stop chars ∧
      (∀ value ∈ run.values chars, Recorded subject.text found.marks stop value) ∧
      later.origin = 0 ∧
      later.marks.map Prod.fst = run.marks.reverse ++ trace.marks.map Prod.fst ∧
      Reaches subject rest stop later found := by
  obtain ⟨set, amount, group?⟩ := run
  cases group? with
  | none =>
      obtain ⟨chars, stop, hfills, hrest⟩ := exists_fills_body ⟨set, amount, none⟩ h
      exact ⟨chars, stop, trace, hfills, fun _ hmem => (nomatch hmem), horigin, rfl, hrest⟩
  | some name =>
      have hbody := ((h.only rfl).only rfl).only rfl
      obtain ⟨chars, stop, hfills, hstop⟩ :=
        exists_fills_body ⟨set, amount, some name⟩ hbody
      have hrest := hstop.only rfl
      refine ⟨chars, stop, _, ⟨hfills.admits, hfills.spans, ?_⟩, ?_, ?_, ?_, hrest⟩
      · exact fun more last hne hmore hadmits hends =>
          hfills.longest more last hne hmore hadmits (.go rfl List.mem_cons_self hends)
      · intro value hmem
        obtain rfl := List.mem_singleton.mp hmem
        refine ⟨position, stop, hstop.marks_suffix.subset ?_, hrest.marks_suffix.subset ?_,
          Nat.le_refl stop, ?_⟩
        · simp [Pattern.Trace.follow, Pattern.Trace.pass, horigin]
        · simp [Pattern.Trace.follow, Pattern.Trace.pass, horigin]
        · rw [String.toList_ofList]
          exact hfills.spans
      · exact horigin
      · rfl

/-- The preferred way through a sequence of runs reads the text by them, and each run takes as much
as it can. -/
theorem exists_longest
    (h : Reaches subject [⟨label, sequence (runs.map Run.pattern)⟩] position trace found)
    (horigin : trace.origin = 0) :
    ∃ chars values, Longest runs (subject.text.drop position) chars values ∧
      Spans subject.text position found.length chars ∧
      found.marks.map Prod.fst = (runs.flatMap Run.marks).reverse ++ trace.marks.map Prod.fst ∧
      ∀ value ∈ values, Recorded subject.text found.marks found.length value := by
  induction runs generalizing position trace label with
  | nil =>
      refine ⟨[], [], .nil, ?_, ?_, List.forall_mem_nil _⟩
      · rw [(h.only rfl).found_eq, Pattern.Trace.finish, Pattern.Trace.follow_origin, horigin]
        exact Spans.nil subject.text position
      · rw [(h.only rfl).found_eq]
        rfl
  | cons run runs ih =>
      cases runs with
      | nil =>
          obtain ⟨chars, stop, later, hfills, hvalues, hlater, hmarks, hrest⟩ :=
            exists_fills h horigin
          have hlength : found.length = stop := by
            rw [hrest.found_eq, Pattern.Trace.finish, hlater, Nat.sub_zero]
          refine ⟨chars ++ [], run.values chars ++ [], ?_, ?_, ?_, ?_⟩
          · rw [hfills.spans.drop_eq]
            refine .cons hfills.admits (fun more left htext hne hadmits _ => ?_) .nil
            exact hfills.longest more _ hne (.of_drop htext) hadmits ⟨0, .finish⟩
          · rw [List.append_nil, hlength]
            exact hfills.spans
          · rw [hrest.found_eq, List.flatMap_singleton]
            exact hmarks
          · rw [List.append_nil, hlength]
            exact hvalues
      | cons next runs =>
          obtain ⟨first, stop, later, hfills, hvalues, hlater, hmarks, hrest⟩ :=
            exists_fills (h.only rfl) horigin
          obtain ⟨chars, values, hlongest, hspans, hmarksRest, hrecorded⟩ := ih hrest hlater
          refine ⟨first ++ chars, run.values first ++ values, ?_, hfills.spans.append hspans, ?_, ?_⟩
          · rw [hfills.spans.drop_eq]
            refine .cons hfills.admits (fun more left htext hne hadmits hreadable => ?_) hlongest
            have hmore := Spans.of_drop htext
            refine hfills.longest more _ hne hmore hadmits (Readable.ends ?_ _)
            rwa [← List.append_cancel_left (htext.symm.trans hmore.drop_eq)]
          · rw [List.flatMap_cons, List.reverse_append, List.append_assoc, hmarksRest, hmarks]
            rfl
          · refine List.forall_mem_append.mpr ⟨fun value hmem => ?_, hrecorded⟩
            have hle : stop ≤ found.length := by
              rw [hspans.stop_eq]
              exact Nat.le_add_right _ _
            exact (hvalues value hmem).mono hle

end

theorem lookup_of_mem {α β : Type} [BEq α] [LawfulBEq α] {key : α} {value : β}
    {entries : List (α × β)} (hnodup : (entries.map Prod.fst).Nodup)
    (hmem : (key, value) ∈ entries) : entries.lookup key = some value := by
  obtain ⟨before, after, rfl⟩ := List.append_of_mem hmem
  rw [List.map_append, List.map_cons, List.nodup_append] at hnodup
  refine List.lookup_eq_some_iff.mpr ⟨before, after, rfl, fun entry hentry => ?_⟩
  have hne := hnodup.2.2 _ (List.mem_map_of_mem hentry) _ List.mem_cons_self
  exact bne_iff_ne.mpr hne.symm

/-- How a match is read by runs. -/
structure Taken (subject : Subject) (runs : List Run) (found : Pattern.Match) (chars : List Char)
    (values : List (String × String)) : Prop where
  longest : Longest runs subject.text chars values
  spans : Spans subject.text 0 found.length chars
  nodup : (found.marks.map Prod.fst).Nodup
  recorded : ∀ value ∈ values, Recorded subject.text found.marks found.length value

section

variable {subject : Subject} {runs : List Run} {found : Pattern.Match} {chars : List Char}
  {values : List (String × String)}

theorem exists_taken
    (hfound : (sequence (runs.map Run.pattern)).match? subject.before subject.text = some found)
    (hnodup : (runs.flatMap Run.marks).Nodup) :
    ∃ chars values, Taken subject runs found chars values := by
  obtain ⟨chars, values, hlongest, hspans, hmarks, hrecorded⟩ :=
    exists_longest (.of_finds (Pattern.finds_of_match? hfound)) rfl
  refine ⟨chars, values, hlongest, hspans, ?_, hrecorded⟩
  rw [hmarks, List.map_nil, List.append_nil, List.nodup_reverse]
  exact hnodup

theorem Taken.group?_eq (h : Taken subject runs found chars values) {value : String × String}
    (hmem : value ∈ values) : found.group? value.1 chars = some value.2.toList := by
  obtain ⟨first, last, hfirst, hlast, hle, hvalue⟩ := h.recorded value hmem
  have hchars : chars = subject.text.take found.length := h.spans.eq_take
  rw [Pattern.Match.group?, Pattern.Match.span?, lookup_of_mem h.nodup hfirst,
    lookup_of_mem h.nodup hlast, hchars]
  simp only [Option.map_some, ← hvalue.eq_take_take hle]

end

end Comment

end DocMarkup
