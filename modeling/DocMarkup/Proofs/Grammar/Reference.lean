import DocMarkup.Proofs.Grammar.Alternatives
import DocMarkup.Proofs.Grammar.Partition
import DocMarkup.Proofs.Pattern.Soundness
import Mathlib.Data.List.Chain

/-!
Scanning with separate alternatives.

The reference scanner knows no composed pattern. At every position it tries the alternatives
on their own, each of them seeing the whole text, and takes the first one that matches there.
Scanning with a compiled grammar gives the same tokens.
-/

namespace DocMarkup

namespace Grammar

theorem groupName_ne (owner property : String) : NamedPattern.groupName owner property ≠ owner := by
  intro h
  have hlength := congrArg String.length h
  simp only [NamedPattern.groupName, String.length_append] at hlength
  have hmark : "_".length = 1 := rfl
  omega

theorem seek?_eq (grammar : Grammar) (text : List Char) (position : Nat) :
    grammar.seek? text position =
      match grammar.searchAt? text position with
      | none => none
      | some found =>
          if found.length = 0 then grammar.seek? text (found.stop + 1) else some found := by
  rw [Grammar.seek?]
  split <;> simp [*]

section

variable {grammar : Grammar} {text : List Char}

theorem Cursor.tokens_of_next {cursor after : Cursor} {token : Token}
    (h : cursor.next grammar text = (some token, after)) :
    cursor.tokens grammar text = token :: after.tokens grammar text := by
  rw [Cursor.tokens]
  split
  · next hnone => cases h.symm.trans hnone
  · next hsome =>
      cases h.symm.trans hsome
      rfl

theorem Cursor.tokens_of_next_none {cursor after : Cursor}
    (h : cursor.next grammar text = (none, after)) : cursor.tokens grammar text = [] := by
  rw [Cursor.tokens]
  split
  · rfl
  · next hsome => cases h.symm.trans hsome

theorem Cursor.tokens_pending (position searchFrom : Nat) (token : Token) :
    Cursor.tokens grammar text ⟨position, searchFrom, some token, false⟩ =
      token :: Cursor.tokens grammar text ⟨position, searchFrom, none, false⟩ :=
  tokens_of_next rfl

theorem Cursor.tokens_finished (position searchFrom : Nat) :
    Cursor.tokens grammar text ⟨position, searchFrom, none, true⟩ = [] :=
  tokens_of_next_none rfl

end

section

variable [UnicodeClasses]

structure Choice where
  index : Nat
  alternative : Alternative
  found : Pattern.Match

def Choice.token (choice : Choice) (text : List Char) (position : Nat) : Token :=
  let stop := position + choice.found.length
  { otherToken text position stop with
    rule := some choice.index
    name := choice.alternative.name
    properties := captured choice.alternative.rule (piece text position stop) choice.found }

namespace Reference

def preferred? (alternatives : List Alternative) (subject : Subject) : Option Choice :=
  alternatives.zipIdx.findSome? fun (alternative, index) =>
    (alternative.pattern.match? subject.before subject.text).map (⟨index, alternative, ·⟩)

def leftmost? (alternatives : List Alternative) (text : List Char) (position : Nat) :
    Option (Nat × Choice) :=
  if position ≤ text.length then
    match preferred? alternatives (Subject.behind ⟨none, text⟩ position) with
    | some choice => some (position, choice)
    | none => leftmost? alternatives text (position + 1)
  else none
termination_by text.length + 1 - position

theorem leftmost?_sound {alternatives : List Alternative} {text : List Char}
    {position place : Nat} {choice : Choice}
    (h : leftmost? alternatives text position = some (place, choice)) :
    position ≤ place ∧ place ≤ text.length ∧
      preferred? alternatives (Subject.behind ⟨none, text⟩ place) = some choice := by
  fun_induction leftmost? alternatives text position with
  | case1 position hle other hpreferred =>
      cases h
      exact ⟨Nat.le_refl _, hle, hpreferred⟩
  | case2 position hle hpreferred ih =>
      obtain ⟨hplace, hrest⟩ := ih h
      exact ⟨Nat.le_of_succ_le hplace, hrest⟩
  | case3 => cases h

/-- After an empty match the search continues at the next character. -/
def next? (alternatives : List Alternative) (text : List Char) (position : Nat) :
    Option (Nat × Choice) :=
  match _h : leftmost? alternatives text position with
  | none => none
  | some (place, choice) =>
      if choice.found.length = 0 then next? alternatives text (place + 1)
      else some (place, choice)
termination_by text.length + 1 - position
decreasing_by
  have hsound := leftmost?_sound _h
  omega

theorem next?_sound {alternatives : List Alternative} {text : List Char} {position place : Nat}
    {choice : Choice} (h : next? alternatives text position = some (place, choice)) :
    position ≤ place ∧ place ≤ text.length ∧ choice.found.length ≠ 0 ∧
      preferred? alternatives (Subject.behind ⟨none, text⟩ place) = some choice := by
  fun_induction next? alternatives text position with
  | case1 => cases h
  | case2 position other found hleftmost hempty ih =>
      obtain ⟨hplace, hrest⟩ := ih h
      have hother := (leftmost?_sound hleftmost).1
      exact ⟨by omega, hrest⟩
  | case3 position other found hleftmost hempty =>
      cases h
      obtain ⟨hplace, hlength, hpreferred⟩ := leftmost?_sound hleftmost
      exact ⟨hplace, hlength, hempty, hpreferred⟩

/-- The tokens of what is left of the text once the last token stopped at `last`. -/
def tokens (alternatives : List Alternative) (text : List Char) (last : Nat) : List Token :=
  match _h : next? alternatives text last with
  | none => if last < text.length then [otherToken text last text.length] else []
  | some (place, choice) =>
      (if last < place then [otherToken text last place] else []) ++
        choice.token text place :: tokens alternatives text (place + choice.found.length)
termination_by text.length + 1 - last
decreasing_by
  have hsound := next?_sound _h
  omega

end Reference

open Reference

def Choice.inGroup (choice : Choice) (position : Nat) : Pattern.Match :=
  choice.found.inGroup position choice.alternative.name

variable {grammar : Grammar} {alternatives : List Alternative} {text : List Char}

theorem matches_of_preferred? {subject : Subject} {choice : Choice}
    (h : preferred? alternatives subject = some choice) :
    ∃ before after, alternatives = before ++ choice.alternative :: after ∧
      choice.index = before.length ∧
      choice.alternative.pattern.match? subject.before subject.text = some choice.found ∧
      ∀ other ∈ before, other.pattern.match? subject.before subject.text = none := by
  obtain ⟨before, ⟨alternative, index⟩, after, hsplit, hmatch, hbefore⟩ :=
    List.findSome?_eq_some_iff.mp h
  obtain ⟨found, hfound, rfl⟩ := Option.map_eq_some_iff.mp hmatch
  have halternatives := congrArg (List.map Prod.fst) hsplit
  rw [List.zipIdx_map_fst, List.map_append, List.map_cons] at halternatives
  refine ⟨before.map Prod.fst, after.map Prod.fst, halternatives, ?_, hfound, ?_⟩
  · have hindex : alternatives.zipIdx[before.length]? = some (alternative, index) := by
      rw [hsplit, List.getElem?_append_right (Nat.le_refl _), Nat.sub_self, List.getElem?_cons_zero]
    rw [List.getElem?_zipIdx, Nat.zero_add] at hindex
    obtain ⟨other, -, heq⟩ := Option.map_eq_some_iff.mp hindex
    cases heq
    exact (List.length_map ..).symm
  · intro other hother
    obtain ⟨entry, hentry, rfl⟩ := List.mem_map.mp hother
    exact Option.map_eq_none_iff.mp (hbefore entry hentry)

theorem fails_of_preferred? {subject : Subject} (h : preferred? alternatives subject = none) :
    ∀ alternative ∈ alternatives,
      alternative.pattern.match? subject.before subject.text = none := by
  intro alternative hmem
  obtain ⟨index, hindex⟩ := List.mem_iff_getElem?.mp hmem
  have hentry : (alternative, index) ∈ alternatives.zipIdx :=
    List.mem_iff_getElem?.mpr ⟨index, by simp [List.getElem?_zipIdx, hindex]⟩
  exact Option.map_eq_none_iff.mp (List.findSome?_eq_none_iff.mp h _ hentry)

/-- The composed pattern takes what the preferred alternative takes, in the group of its name. -/
theorem Composes.tried (h : grammar.Composes alternatives) (subject : Subject) (position : Nat) :
    Pattern.Tried subject grammar.pattern position
      ((preferred? alternatives (subject.behind position)).map (·.inGroup position)) := by
  rw [h.pattern]
  cases hpreferred : preferred? alternatives (subject.behind position) with
  | none =>
      refine .fails (Pattern.fails_alternation (by simpa using h.nonempty) fun entry hmem => ?_)
      obtain ⟨alternative, halternative, rfl⟩ := List.mem_map.mp hmem
      exact Pattern.fails_of_match? (fails_of_preferred? hpreferred alternative halternative)
  | some choice =>
      obtain ⟨before, after, hsplit, -, hfound, hbefore⟩ := matches_of_preferred? hpreferred
      rw [hsplit, List.map_append, List.map_cons]
      refine .finds (Pattern.finds_alternation (fun entry hmem => ?_)
        (Pattern.finds_of_match? hfound) fun _ hmem => (nomatch hmem))
      obtain ⟨other, hother, rfl⟩ := List.mem_map.mp hmem
      exact Pattern.fails_of_match? (hbefore other hother)

theorem Composes.name_not_mem {before after : List Alternative} {alternative other : Alternative}
    (h : grammar.Composes (before ++ alternative :: after)) (hother : other ∈ before ++ after) :
    other.name ∉ alternative.names := by
  have hperm : List.Perm ((before ++ alternative :: after).flatMap Alternative.names)
      ((alternative :: (before ++ after)).flatMap Alternative.names) :=
    List.perm_middle.flatMap_right _
  have hnames := hperm.nodup_iff.mp h.names
  rw [List.flatMap_cons, List.nodup_append] at hnames
  exact fun hmem => hnames.2.2 _ hmem _
    (List.mem_flatMap.mpr ⟨other, hother, List.mem_cons_self⟩) rfl

section

variable {subject : Subject} {choice : Choice}

theorem Composes.span?_other {before after : List Alternative} {other : Alternative}
    (h : grammar.Composes (before ++ choice.alternative :: after))
    (hfound : choice.found.Sound subject choice.alternative.pattern)
    (hother : other ∈ before ++ after) (position : Nat) :
    (choice.inGroup position).span? other.name = none := by
  have hnames := h.name_not_mem hother
  have hgroups : other.name ∉ choice.alternative.pattern.groups := fun hmem =>
    hnames (List.mem_cons_of_mem _ (Expression.mem_names_of_mem_groups hmem))
  have hne : other.name ≠ choice.alternative.name := fun heq => hnames (heq ▸ List.mem_cons_self)
  rw [Choice.inGroup, Pattern.Match.span?_inGroup_of_ne hne]
  exact hfound.span?_eq_none hgroups

theorem Choice.span?_rule (choice : Choice) (position : Nat) :
    ((choice.inGroup position).span? choice.alternative.rule.name).isSome = true :=
  choice.found.span?_inGroup_self position choice.alternative.name

theorem Composes.taken? (h : grammar.Composes alternatives)
    (hchoice : preferred? alternatives subject = some choice) (position : Nat) :
    grammar.taken? (choice.inGroup position) =
      some (choice.index, choice.alternative.rule) := by
  obtain ⟨before, after, rfl, hindex, hfound, -⟩ := matches_of_preferred? hchoice
  have hself := choice.span?_rule position
  have hbefore : ∀ rule ∈ before.map Alternative.rule,
      ((choice.inGroup position).span? rule.name).isSome = false := by
    intro rule hmem
    obtain ⟨other, hother, rfl⟩ := List.mem_map.mp hmem
    have hnone :=
      h.span?_other (Pattern.match?_sound hfound) (List.mem_append_left _ hother) position
    exact Option.isSome_eq_false_iff.mpr (Option.isNone_iff_eq_none.mpr hnone)
  have hfind : grammar.rules.find? (fun rule =>
      ((choice.inGroup position).span? rule.name).isSome) =
      some choice.alternative.rule := by
    rw [h.rules, List.map_append, List.map_cons, List.find?_eq_some_iff_append]
    exact ⟨hself, _, _, rfl, fun rule hmem => by rw [hbefore rule hmem]; rfl⟩
  have hfindIdx : grammar.rules.findIdx? (fun rule =>
      ((choice.inGroup position).span? rule.name).isSome) =
      some choice.index := by
    rw [h.rules, List.map_append, List.map_cons, List.findIdx?_append,
      List.findIdx?_eq_none_iff.mpr hbefore, List.findIdx?_cons, hself, hindex]
    simp
  rw [Grammar.taken?]
  simp only [hfind, hfindIdx]

theorem Choice.captured_inGroup (choice : Choice) (text : List Char) (position : Nat) :
    captured choice.alternative.rule text (choice.inGroup position) =
      captured choice.alternative.rule text choice.found := by
  refine List.filterMap_congr fun (key, group) hmem => ?_
  obtain ⟨property, -, heq⟩ := List.mem_map.mp hmem
  cases heq
  simp only [Pattern.Match.group?, Choice.inGroup,
    Pattern.Match.span?_inGroup_of_ne (groupName_ne _ _)]

theorem Choice.start_inGroup (hchoice : preferred? alternatives subject = some choice)
    (position : Nat) : (choice.inGroup position).start = position := by
  obtain ⟨-, -, -, -, hfound, -⟩ := matches_of_preferred? hchoice
  calc (choice.inGroup position).start
      _ = position + choice.found.start := rfl
      _ = position + 0 := by rw [(Pattern.finds_of_match? hfound).start_eq]

theorem Choice.stop_inGroup (hchoice : preferred? alternatives subject = some choice)
    (position : Nat) : (choice.inGroup position).stop = position + choice.found.length := by
  rw [Pattern.Match.stop, choice.start_inGroup hchoice]
  rfl

theorem Composes.matchToken (h : grammar.Composes alternatives)
    (hchoice : preferred? alternatives subject = some choice) (text : List Char)
    (position : Nat) :
    grammar.matchToken text (choice.inGroup position) = choice.token text position := by
  rw [Grammar.matchToken, h.taken? hchoice]
  simp only [choice.start_inGroup hchoice, choice.stop_inGroup hchoice, choice.captured_inGroup]
  rfl

theorem Composes.took_iff (h : grammar.Composes alternatives)
    (hchoice : preferred? alternatives subject = some choice) (position : Nat) {rule : Rule}
    (hrule : rule ∈ grammar.rules) :
    ((choice.inGroup position).span? rule.name).isSome = true ↔
      rule = choice.alternative.rule := by
  obtain ⟨before, after, rfl, -, hfound, -⟩ := matches_of_preferred? hchoice
  rw [h.rules] at hrule
  obtain ⟨other, hother, rfl⟩ := List.mem_map.mp hrule
  constructor
  · intro htook
    rcases List.mem_cons.mp (List.perm_middle.mem_iff.mp hother) with rfl | hother
    · rfl
    · have hnone := h.span?_other (Pattern.match?_sound hfound) hother position
      rw [show other.rule.name = other.name from rfl, hnone] at htook
      cases htook
  · rintro heq
    rw [heq]
    exact choice.span?_rule position

end

theorem Composes.leftmost?_of_searched (h : grammar.Composes alternatives) {start position : Nat}
    {result : Option Pattern.Match} (hstart : start ≤ text.length)
    (hsearched : Pattern.Searched (Subject.behind ⟨none, text⟩ start) grammar.pattern position
      result) :
    result.map (fun found => { found with start := start + found.start }) =
      (leftmost? alternatives text (start + position)).map fun entry =>
        entry.2.inGroup entry.1 := by
  have hlength : (Subject.behind ⟨none, text⟩ start).text.length = text.length - start :=
    List.length_drop
  have hpreferred {position : Nat} {result : Option Pattern.Match}
      (htried : Pattern.Tried (Subject.behind ⟨none, text⟩ start) grammar.pattern position result) :
      (preferred? alternatives (Subject.behind ⟨none, text⟩ (start + position))).map
        (·.inGroup position) = result := by
    rw [← Subject.behind_behind]
    exact (h.tried _ position).unique htried
  induction hsearched with
  | @past position hlt =>
      rw [leftmost?, if_neg (by omega)]
      rfl
  | @next position result hle htried hnext ih =>
      rw [ih, leftmost?.eq_1 alternatives text (start + position), if_pos (by omega),
        Option.map_eq_none_iff.mp (hpreferred htried)]
      rfl
  | @here position found hle htried =>
      obtain ⟨choice, hchoice, rfl⟩ := Option.map_eq_some_iff.mp (hpreferred htried)
      rw [leftmost?, if_pos (by omega), hchoice]
      simp [Choice.inGroup, Pattern.Match.inGroup, Nat.add_assoc]

theorem Composes.searchAt? (h : grammar.Composes alternatives) (text : List Char)
    (position : Nat) :
    grammar.searchAt? text position =
      (leftmost? alternatives text position).map fun entry => entry.2.inGroup entry.1 := by
  unfold Grammar.searchAt?
  split
  · next hle =>
      have hleftmost := h.leftmost?_of_searched hle (Pattern.search?_searched grammar.pattern _)
      rw [behind_eq hle] at hleftmost
      exact hleftmost
  · next hlt =>
      rw [leftmost?, if_neg hlt]
      rfl

theorem Composes.seek? (h : grammar.Composes alternatives) (text : List Char) (position : Nat) :
    grammar.seek? text position =
      (next? alternatives text position).map fun entry => entry.2.inGroup entry.1 := by
  fun_induction next? alternatives text position with
  | case1 position hleftmost =>
      rw [seek?_eq, h.searchAt?, hleftmost]
      rfl
  | case2 position place choice hleftmost hempty ih =>
      have hstop := choice.stop_inGroup (leftmost?_sound hleftmost).2.2 place
      rw [hempty, Nat.add_zero] at hstop
      rw [seek?_eq, h.searchAt?, hleftmost, ← ih]
      show (if choice.found.length = 0 then _ else _) = _
      rw [if_pos hempty, hstop]
  | case3 position place choice hleftmost hempty =>
      rw [seek?_eq, h.searchAt?, hleftmost]
      exact if_neg hempty

theorem Composes.tokens (h : grammar.Composes alternatives) (last : Nat) :
    Cursor.tokens grammar text ⟨last, last, none, false⟩ =
      Reference.tokens alternatives text last := by
  fun_induction Reference.tokens alternatives text last with
  | case1 last hnext hlt =>
      have hseek := h.seek? text last
      rw [hnext, Option.map_none] at hseek
      have hgives : Cursor.next grammar text ⟨last, last, none, false⟩ =
          (some (otherToken text last text.length), ⟨text.length, last, none, true⟩) := by
        simp [Cursor.next, hseek, hlt]
      rw [Cursor.tokens_of_next hgives, Cursor.tokens_finished]
  | case2 last hnext hge =>
      have hseek := h.seek? text last
      rw [hnext, Option.map_none] at hseek
      have hgives : Cursor.next grammar text ⟨last, last, none, false⟩ =
          (none, ⟨last, last, none, true⟩) := by
        simp [Cursor.next, hseek, hge]
      exact Cursor.tokens_of_next_none hgives
  | case3 last place choice hnext ih =>
      have hseek := h.seek? text last
      rw [hnext, Option.map_some] at hseek
      obtain ⟨-, -, -, hchoice⟩ := next?_sound hnext
      have hstart := choice.start_inGroup hchoice place
      have hstop := choice.stop_inGroup hchoice place
      have htoken := h.matchToken hchoice text place
      by_cases hgap : last < place
      · have hgives : Cursor.next grammar text ⟨last, last, none, false⟩ =
            (some (otherToken text last place), ⟨place + choice.found.length,
              place + choice.found.length, some (choice.token text place), false⟩) := by
          simp [Cursor.next, hseek, hstart, hstop, htoken, hgap]
        rw [Cursor.tokens_of_next hgives, Cursor.tokens_pending, ih, if_pos hgap]
        rfl
      · have hgives : Cursor.next grammar text ⟨last, last, none, false⟩ =
            (some (choice.token text place), ⟨place + choice.found.length,
              place + choice.found.length, none, false⟩) := by
          simp [Cursor.next, hseek, hstart, hstop, htoken, hgap]
        rw [Cursor.tokens_of_next hgives, ih, if_neg hgap]
        rfl

/-- Two stretches that nothing matched are never next to each other. -/
def Separated (tokens : List Token) : Prop :=
  tokens.IsChain fun first second => first.rule ≠ none ∨ second.rule ≠ none

theorem Reference.separated_tokens (alternatives : List Alternative) (text : List Char)
    (last : Nat) : Separated (Reference.tokens alternatives text last) := by
  fun_induction Reference.tokens alternatives text last with
  | case1 => exact .singleton _
  | case2 => exact .nil
  | case3 last place choice hnext ih =>
      have hrule : (choice.token text place).rule ≠ none := fun h => nomatch h
      have hmatch : Separated (choice.token text place ::
          Reference.tokens alternatives text (place + choice.found.length)) :=
        List.isChain_cons.mpr ⟨fun _ _ => .inl hrule, ih⟩
      split
      · refine List.isChain_cons.mpr ⟨fun second hsecond => ?_, hmatch⟩
        cases hsecond
        exact .inr hrule
      · exact hmatch

/-- Scanning with a compiled grammar tries the public patterns in the order in which they are
declared, each of them as if it were alone, unless one of them leaves a comment open. -/
theorem scan_reference {patterns : List NamedPattern} {grammar : Grammar}
    {alternatives : List Alternative} (hcompile : compile patterns = .ok grammar)
    (hexpand : NamedPattern.expand patterns = .ok (alternatives.map Alternative.entry))
    (hclosed : ∀ alternative ∈ alternatives, ¬ Lexeme.EndsInComment [] alternative.body.text)
    (text : String) :
    alternatives.map Alternative.name =
        (patterns.filter (!·.isPrivate)).map NamedPattern.label ∧
      grammar.scan text = Reference.tokens alternatives text.toList 0 ∧
      (∀ position found, grammar.searchAt? text.toList position = some found →
        ∃! rule, rule ∈ grammar.rules ∧ (found.span? rule.name).isSome = true) ∧
      Separated (grammar.scan text) := by
  have hcomposes := composes_of_compile hcompile hexpand hclosed
  have hscan : grammar.scan text = Reference.tokens alternatives text.toList 0 :=
    hcomposes.tokens 0
  refine ⟨?_, hscan, fun position found hfound => ?_, ?_⟩
  · rw [← NamedPattern.names_of_expand hexpand, List.map_map]
    rfl
  · rw [hcomposes.searchAt?] at hfound
    obtain ⟨⟨place, choice⟩, hleftmost, rfl⟩ := Option.map_eq_some_iff.mp hfound
    obtain ⟨-, -, hchoice⟩ := leftmost?_sound hleftmost
    have hmem : choice.alternative.rule ∈ grammar.rules := by
      obtain ⟨before, after, hsplit, -⟩ := matches_of_preferred? hchoice
      rw [hcomposes.rules, hsplit]
      exact List.mem_map_of_mem (List.mem_append_right _ List.mem_cons_self)
    refine ⟨choice.alternative.rule, ⟨hmem, choice.span?_rule place⟩, ?_⟩
    rintro rule ⟨hrule, htook⟩
    exact (hcomposes.took_iff hchoice place hrule).mp htook
  · rw [hscan]
    exact separated_tokens alternatives text.toList 0

end

def optionalFirst : List NamedPattern :=
  [⟨"maybe", "b*"⟩, ⟨"letter", "[a-c]"⟩]

def optionalFirstAlternatives : List Alternative :=
  [⟨"maybe", ⟨"b*".toList, []⟩, .repeated 0 none true (.literal 'b'), by decide +kernel⟩,
    ⟨"letter", ⟨"[a-c]".toList, []⟩, .set (.bracketed false (.range 'a' 'c')),
      by decide +kernel⟩]

theorem scan_reference_optionalFirst :
    ∃ grammar, compile optionalFirst = .ok grammar ∧
      NamedPattern.expand optionalFirst =
        .ok (optionalFirstAlternatives.map Alternative.entry) ∧
      (∀ alternative ∈ optionalFirstAlternatives,
        ¬ Lexeme.EndsInComment [] alternative.body.text) ∧
      grammar.scan "abc" = Reference.tokens optionalFirstAlternatives "abc".toList 0 ∧
      (grammar.scan "abc").map (fun token => (token.name, token.text)) =
        [("other", "a"), ("maybe", "b"), ("other", "c")] := by
  have htokens : (compile optionalFirst).toOption.map (fun grammar =>
      (grammar.scan "abc").map fun token => (token.name, token.text)) =
      some [("other", "a"), ("maybe", "b"), ("other", "c")] := by decide +kernel
  have hexpand : NamedPattern.expand optionalFirst =
      .ok (optionalFirstAlternatives.map Alternative.entry) := by decide +kernel
  have hclosed : ∀ alternative ∈ optionalFirstAlternatives,
      ¬ Lexeme.EndsInComment [] alternative.body.text := by decide +kernel
  cases hcompile : compile optionalFirst with
  | error error => simp [hcompile, Except.toOption] at htokens
  | ok grammar =>
      obtain ⟨-, hscan, -, -⟩ := scan_reference hcompile hexpand hclosed "abc"
      simp only [hcompile, Except.toOption, Option.map_some, Option.some.injEq] at htokens
      exact ⟨grammar, rfl, hexpand, hclosed, hscan, htokens⟩

/-- The first pattern is valid on its own, and its comment takes in the start of the second
one. -/
def commentLeft : List NamedPattern :=
  [⟨"p", "(?x)a #"⟩, ⟨"q", "\nb"⟩, ⟨"r", "(?P<q>c)"⟩]

def commentLeftAlternatives : List Alternative :=
  [⟨"p", ⟨"(?x)a #".toList, []⟩, .seq (.flags [(.verbose, true)]) (.literal 'a'),
      by decide +kernel⟩,
    ⟨"q", ⟨"\nb".toList, []⟩, .seq (.literal '\n') (.literal 'b'), by decide +kernel⟩,
    ⟨"r", ⟨"(?P<q>c)".toList, []⟩, .group (.named "q") (.literal 'c'), by decide +kernel⟩]

theorem scan_ne_reference_commentLeft :
    ∃ grammar, compile commentLeft = .ok grammar ∧
      NamedPattern.expand commentLeft = .ok (commentLeftAlternatives.map Alternative.entry) ∧
      grammar.scan "a" ≠ Reference.tokens commentLeftAlternatives "a".toList 0 := by
  have hscan : (compile commentLeft).toOption.map (fun grammar =>
      (grammar.scan "a").map Token.rule) = some [none] := by decide +kernel
  have htokens : (Reference.tokens commentLeftAlternatives "a".toList 0).map Token.rule =
      [some 0] := by decide +kernel
  have hexpand : NamedPattern.expand commentLeft =
      .ok (commentLeftAlternatives.map Alternative.entry) := by decide +kernel
  cases hcompile : compile commentLeft with
  | error error => simp [hcompile, Except.toOption] at hscan
  | ok grammar =>
      simp only [hcompile, Except.toOption, Option.map_some, Option.some.injEq] at hscan
      refine ⟨grammar, rfl, hexpand, fun heq => ?_⟩
      rw [heq, htokens] at hscan
      exact absurd hscan (by decide)

end Grammar

end DocMarkup
