import DocMarkup.Proofs.Comment.Grammar
import DocMarkup.Proofs.Grammar.Matches

namespace DocMarkup

namespace Comment

open Pattern (group)

theorem takes_choice {subject : Subject} {start stop : Nat} {passed : Pattern.Passed}
    {alternatives : List Pattern} (hne : alternatives ≠ [])
    (h : Pattern.Takes subject (choice alternatives) start stop passed) :
    ∃ alternative ∈ alternatives, Pattern.Takes subject alternative start stop passed := by
  induction alternatives with
  | nil => contradiction
  | cons first rest ih =>
      cases rest with
      | nil => exact ⟨first, List.mem_singleton_self first, h⟩
      | cons second rest =>
          cases h with
          | altFirst h => exact ⟨first, List.mem_cons_self, h⟩
          | altSecond h =>
              obtain ⟨alternative, hmem, htakes⟩ := ih (by simp) h
              exact ⟨alternative, List.mem_cons_of_mem first hmem, htakes⟩

theorem name_eq_of_mem_groups :
    ∀ rule ∈ rules, ∀ entry ∈ bodies, rule.name ∈ (group entry.1 entry.2).groups →
      rule.name = entry.1 := by
  decide +kernel

theorem takes_of_taken? {grammar : Grammar} (hgrammar : IsGrammar grammar) {subject : Subject}
    {found : Pattern.Match} {index : Nat} {rule : Grammar.Rule}
    (hsound : found.Sound subject grammar.pattern)
    (htaken : grammar.taken? found = some (index, rule)) :
    ∃ body, (rule.name, body) ∈ bodies ∧
      Pattern.Takes subject (group rule.name body) found.start found.stop found.passed := by
  obtain ⟨hmem, position, hstart⟩ := Grammar.start_mem_of_taken? htaken
  have htakes := hsound.takes
  rw [hgrammar.pattern_eq] at htakes
  obtain ⟨alternative, halternative, htakes⟩ := takes_choice (by simp [bodies]) htakes
  obtain ⟨⟨name, body⟩, hentry, rfl⟩ := List.mem_map.mp halternative
  rw [hgrammar.rules_eq] at hmem
  have hname := name_eq_of_mem_groups rule hmem (name, body) hentry (htakes.group_mem hstart)
  rw [hname]
  exact ⟨body, hentry, htakes⟩

theorem takes_of_group {subject : Subject} {name : String} {body : Pattern} {start stop : Nat}
    {passed : Pattern.Passed}
    (h : Pattern.Takes subject (group name body) start stop passed) :
    ∃ inner, Pattern.Takes subject body start stop inner := by
  cases h with
  | seq hstart h =>
      cases hstart
      cases h with
      | seq hbody hstop =>
          cases hstop
          exact ⟨_, hbody⟩

structure Origin (text : String) (token : Token) where
  kind : ConstructKind
  name : String
  body : Pattern
  found : Pattern.Match
  matched : Grammar.Token
  kind_eq : ConstructKind.ofName? name = some kind
  mem_bodies : (name, body) ∈ bodies
  takes : Pattern.Takes ⟨none, text.toList⟩ (group name body) found.start found.stop found.passed
  text_eq : token.text = String.ofList (Grammar.piece text.toList found.start found.stop)
  matched_text : matched.text = token.text
  construct_eq : token.construct = kind.construct matched

theorem exists_origin {grammar : Grammar} (hgrammar : IsGrammar grammar) {text : String}
    {token : Token} (hmem : token ∈ tokens grammar text) (hother : token.construct ≠ .other) :
    Nonempty (Origin text token) := by
  obtain ⟨matched, hmatched, rfl⟩ := List.mem_map.mp hmem
  cases hindex : matched.rule with
  | none => simp [constructOf, hindex] at hother
  | some index =>
      cases hkind : ConstructKind.ofName? matched.name with
      | none => simp [constructOf, hindex, hkind] at hother
      | some kind =>
          obtain ⟨found, rule, hsound, htaken, hname, htext, -⟩ :=
            (Grammar.ofText_of_mem_scan hmatched).taken hindex
          obtain ⟨body, hbody, htakes⟩ := takes_of_taken? hgrammar hsound htaken
          exact ⟨kind, rule.name, body, found, matched, hname ▸ hkind, hbody, htakes, htext, rfl,
            by simp [constructOf, hindex, hkind]⟩

theorem Origin.body_eq {text : String} {token : Token} (origin : Origin text token) :
    (origin.kind = .heading → origin.body = heading) ∧
      (origin.kind = .functionCall → origin.body = functionCall) := by
  obtain ⟨kind, name, body, found, matched, hkind, hbody, -, -, -, -⟩ := origin
  unfold ConstructKind.ofName? at hkind
  split at hkind <;> cases hkind <;> simp [bodies] at hbody <;> simp [hbody]

theorem Origin.char_of_mem {text : String} {token : Token} (origin : Origin text token)
    {char : Char} (hmem : char ∈ token.text.toList) :
    ∃ set ∈ origin.body.sets, set.contains char = true := by
  rw [origin.text_eq, String.toList_ofList] at hmem
  obtain ⟨position, hstart, hstop, hchar⟩ := Grammar.exists_position_of_mem_piece hmem
  obtain ⟨inner, htakes⟩ := takes_of_group origin.takes
  exact htakes.exists_set hstart hstop hchar

theorem Origin.kind_of_construct {text : String} {token : Token} (origin : Origin text token) :
    (∀ level title, token.construct = .heading level title → origin.kind = .heading) ∧
      ∀ symbol, token.construct = .functionCall symbol → origin.kind = .functionCall := by
  rw [origin.construct_eq]
  cases origin.kind <;> simp [ConstructKind.construct]

theorem takes_heading {subject : Subject} {start stop : Nat} {passed : Pattern.Passed}
    (h : Pattern.Takes subject heading start stop passed) :
    start < stop ∧ subject.text[start]? = some '#' := by
  cases h with
  | seq hhashes hrest =>
      cases hhashes with
      | oneOrMore hround hrounds =>
          cases hround with
          | oneOf hchar hset =>
              have hlt := Nat.lt_of_lt_of_le (Nat.lt_of_succ_le hrounds.start_le_stop)
                hrest.start_le_stop
              rw [CharSet.contains_single, beq_iff_eq] at hset
              exact ⟨hlt, hset ▸ hchar⟩

theorem one_le_level {grammar : Grammar} (hgrammar : IsGrammar grammar) {text title : String}
    {token : Token} {level : Nat} (hmem : token ∈ tokens grammar text)
    (hheading : token.construct = .heading level title) : 1 ≤ level := by
  obtain ⟨origin⟩ := exists_origin hgrammar hmem (by simp [hheading])
  have hkind := origin.kind_of_construct.1 level title hheading
  obtain ⟨inner, htakes⟩ := takes_of_group origin.takes
  rw [origin.body_eq.1 hkind] at htakes
  obtain ⟨hlt, hchar⟩ := takes_heading htakes
  have hconstruct := origin.construct_eq
  rw [hheading, hkind, ConstructKind.construct, Construct.heading.injEq, origin.matched_text,
    origin.text_eq, String.toList_ofList, Grammar.piece_eq_cons hlt hchar] at hconstruct
  simp [hconstruct.1]

theorem less_not_mem_call {grammar : Grammar} (hgrammar : IsGrammar grammar)
    {text symbol : String} {token : Token} (hmem : token ∈ tokens grammar text)
    (hcall : token.construct = .functionCall symbol) : '<' ∉ token.text.toList := by
  obtain ⟨origin⟩ := exists_origin hgrammar hmem (by simp [hcall])
  have hkind := origin.kind_of_construct.2 symbol hcall
  intro hless
  obtain ⟨set, hset, hcontains⟩ := origin.char_of_mem hless
  rw [origin.body_eq.2 hkind] at hset
  have hnone : ∀ set ∈ functionCall.sets, set.contains '<' = false := by decide
  rw [hnone set hset] at hcontains
  contradiction

end Comment

end DocMarkup
