import DocMarkup.Data.Construct
import DocMarkup.Proofs.Comment.Tokens
import DocMarkup.Proofs.Grammar.Reference
import DocMarkup.Proofs.Pattern.Completeness
import DocMarkup.Proofs.Text.References

/-!
What stands between the constructs of a comment.

Where the reference scanner passes over a position, no alternative takes text there. As what an
alternative takes is found, there is no hash between constructs that a type could follow.
-/

namespace DocMarkup

namespace Grammar

namespace Reference

variable {alternatives : List Alternative} {text : List Char} {position between : Nat}

/-- No alternative takes text at the position. -/
def Passes (alternatives : List Alternative) (text : List Char) (position : Nat) : Prop :=
  ∀ choice, preferred? alternatives (Subject.behind ⟨none, text⟩ position) = some choice →
    choice.found.length = 0

theorem passes_of_leftmost? (hfirst : position ≤ between) (hlength : between ≤ text.length)
    (hlast : ∀ place choice, leftmost? alternatives text position = some (place, choice) →
      between < place) : Passes alternatives text between := by
  fun_induction leftmost? alternatives text position with
  | case1 position hle choice hpreferred => exact absurd (hlast position choice rfl) (by omega)
  | case2 position hle hpreferred ih =>
      rcases Nat.eq_or_lt_of_le hfirst with rfl | hlt
      · intro choice hchoice
        cases hpreferred.symm.trans hchoice
      · exact ih hlt hlast
  | case3 position hlt => omega

theorem passes_of_next? (hfirst : position ≤ between) (hlength : between ≤ text.length)
    (hlast : ∀ place choice, next? alternatives text position = some (place, choice) →
      between < place) : Passes alternatives text between := by
  fun_induction next? alternatives text position with
  | case1 position hleftmost =>
      refine passes_of_leftmost? hfirst hlength fun place choice h => ?_
      cases hleftmost.symm.trans h
  | case2 position place choice hleftmost hempty ih =>
      rcases Nat.lt_trichotomy between place with hlt | rfl | hgt
      · refine passes_of_leftmost? hfirst hlength fun other _ h => ?_
        cases hleftmost.symm.trans h
        exact hlt
      · intro other hother
        cases (leftmost?_sound hleftmost).2.2.symm.trans hother
        exact hempty
      · exact ih hgt hlast
  | case3 position place choice hleftmost hempty =>
      refine passes_of_leftmost? hfirst hlength fun other _ h => ?_
      cases hleftmost.symm.trans h
      exact hlast place choice rfl

end Reference

theorem getElem?_piece {text : List Char} {first last index : Nat} {char : Char}
    (h : (piece text first last)[index]? = some char) :
    first + index < last ∧ text[first + index]? = some char := by
  rw [piece, List.getElem?_drop, List.getElem?_take] at h
  split at h
  · next hlt => exact ⟨hlt, h⟩
  · cases h

theorem mem_piece {text : List Char} {first position last : Nat} {char : Char}
    (hfirst : first ≤ position) (hlast : position < last) (hchar : text[position]? = some char) :
    char ∈ piece text first last := by
  refine List.mem_iff_getElem?.mpr ⟨position - first, ?_⟩
  rw [piece, List.getElem?_drop, Nat.add_sub_cancel' hfirst, List.getElem?_take_of_lt hlast, hchar]

end Grammar

namespace Comment

open Grammar (Alternative)

def alternativeOf? (entry : String × NamedPattern.Body) : Option Alternative :=
  match h : Expression.read? entry.2.text with
  | some expression => some ⟨entry.1, entry.2, expression, h⟩
  | none => none

def alternatives : List Alternative :=
  ((NamedPattern.expand patterns).toOption.getD []).filterMap alternativeOf?

theorem alternatives_eq :
    alternatives.map (fun alternative => (alternative.named, alternative.rule)) =
        bodies.zip rules ∧
      (alternatives.flatMap Alternative.names).Nodup := by
  decide +kernel

theorem named_alternatives : alternatives.map Alternative.named = bodies := by
  have hnamed := congrArg (List.map Prod.fst) alternatives_eq.1
  rwa [List.map_map, List.map_fst_zip (by decide)] at hnamed

theorem rules_alternatives : alternatives.map Alternative.rule = rules := by
  have hrules := congrArg (List.map Prod.snd) alternatives_eq.1
  rwa [List.map_map, List.map_snd_zip (by decide)] at hrules

theorem composes {grammar : Grammar} (hgrammar : IsGrammar grammar) :
    grammar.Composes alternatives where
  nonempty := by
    have hnamed := named_alternatives
    rintro hnil
    rw [hnil] at hnamed
    cases hnamed
  pattern := by
    rw [hgrammar.pattern_eq, named_alternatives]
    rfl
  rules := by rw [hgrammar.rules_eq, rules_alternatives]
  names := alternatives_eq.2

theorem IsGrammar.scan_eq {grammar : Grammar} (h : IsGrammar grammar) (text : String) :
    grammar.scan text = Grammar.Reference.tokens alternatives text.toList 0 :=
  (composes h).tokens 0

section

variable {subject : Subject} {choice : Grammar.Choice}

theorem takes_of_preferred? (h : Grammar.Reference.preferred? alternatives subject = some choice) :
    (choice.alternative.name, choice.alternative.pattern) ∈ bodies ∧
      ∃ passed, Pattern.Takes subject choice.alternative.pattern 0 choice.found.length passed := by
  obtain ⟨before, after, hsplit, -, hfound, -⟩ := Grammar.matches_of_preferred? h
  have hsound := Pattern.match?_sound hfound
  have hstart : choice.found.start = 0 := (Pattern.finds_of_match? hfound).start_eq
  have htakes := hsound.takes
  rw [Pattern.Match.stop, hstart, Nat.zero_add] at htakes
  refine ⟨?_, _, htakes⟩
  rw [← named_alternatives, hsplit]
  exact List.mem_map_of_mem (List.mem_append_right _ List.mem_cons_self)

theorem meets_of_mem_bodies :
    ∀ entry ∈ bodies, entry.2.meets (fun _ => true) = true := by
  decide +kernel

theorem length_pos_of_preferred?
    (h : Grammar.Reference.preferred? alternatives subject = some choice) :
    0 < choice.found.length := by
  obtain ⟨hmem, passed, htakes⟩ := takes_of_preferred? h
  obtain ⟨position, -, -, hstart, hstop, -⟩ :=
    htakes.exists_of_meets (meets_of_mem_bodies _ hmem)
  exact Nat.lt_of_le_of_lt hstart hstop

end

def typeName : Pattern :=
  sequence [literal '#', Pattern.group "type_name_type_name" word]

theorem takes_typeName (subject : Subject) (position : Nat) {char : Char}
    (hhash : subject.text[position]? = some '#')
    (hchar : subject.text[position + 1]? = some char) (hword : wordChar.contains char = true) :
    ∃ passed, Pattern.Takes subject typeName position (position + 2) passed := by
  have hfirst : Pattern.Takes subject (literal '#') position (position + 1) [] :=
    .oneOf hhash (by decide)
  have hround : Pattern.Takes subject (.oneOf wordChar) (position + 1) (position + 2) [] :=
    .oneOf hchar hword
  exact ⟨_, .seq hfirst (.seq .pass (.seq (.oneOrMore hround .loopEnd) .pass))⟩

theorem not_passes_of_takes {text : List Char} {position stop : Nat} {name : String}
    {body : Pattern} {passed : Pattern.Passed} (hmem : (name, body) ∈ bodies)
    (htakes : Pattern.Takes (Subject.behind ⟨none, text⟩ position) body 0 stop passed) :
    ¬ Grammar.Reference.Passes alternatives text position := by
  intro hpasses
  cases hpreferred :
      Grammar.Reference.preferred? alternatives (Subject.behind ⟨none, text⟩ position) with
  | none =>
      rw [← named_alternatives] at hmem
      obtain ⟨alternative, halternative, hnamed⟩ := List.mem_map.mp hmem
      obtain ⟨-, hpattern⟩ := Prod.mk.inj hnamed
      have hnone := Grammar.fails_of_preferred? hpreferred alternative halternative
      rw [hpattern] at hnone
      exact Pattern.match?_ne_none htakes hnone
  | some choice =>
      have hpos := length_pos_of_preferred? hpreferred
      rw [hpasses choice hpreferred] at hpos
      exact absurd hpos (Nat.lt_irrefl 0)

/-- Wherever a hash stands before a letter, a digit or an underscore, an alternative takes it. -/
theorem not_passes_hash {text : List Char} {position : Nat} {char : Char}
    (hhash : text[position]? = some '#') (hchar : text[position + 1]? = some char)
    (hword : wordChar.contains char = true) :
    ¬ Grammar.Reference.Passes alternatives text position := by
  have hmem : ("type_name", typeName) ∈ bodies := by decide +kernel
  obtain ⟨passed, htakes⟩ := takes_typeName (Subject.behind ⟨none, text⟩ position) 0
    (by simpa [Subject.behind] using hhash) (by simpa [Subject.behind] using hchar) hword
  exact not_passes_of_takes hmem htakes

end Comment

namespace ConstructKind

/-- The kinds that refer to something within a line of text. -/
def isInline : ConstructKind → Bool
  | property | signal | typeName | enumValue | parameter | functionCall => true
  | _ => false

end ConstructKind

namespace Construct

theorem kind?_construct (kind : ConstructKind) (token : Grammar.Token) :
    (kind.construct token).kind? = some kind := by
  cases kind <;> rfl

end Construct

namespace Comment

open Grammar (Alternative)

def isSign (set : CharSet) : Bool :=
  ['#', '%', '@', '('].any fun char => set == .single char

theorem isAlphanum_of_isSign {set : CharSet} {char : Char} (hset : isSign set = true)
    (hchar : set.contains char = true) : char.isAlphanum = false := by
  simp only [isSign, List.any_cons, List.any_nil, Bool.or_false, Bool.or_eq_true,
    beq_iff_eq] at hset
  rcases hset with rfl | rfl | rfl | rfl <;>
    · rw [CharSet.contains_single, beq_iff_eq] at hchar
      subst hchar
      rfl

theorem inline_of_mem_bodies :
    ∀ entry ∈ bodies, (ConstructKind.ofName? entry.1).any ConstructKind.isInline = true →
      entry.2.meets isSign = true ∧
        ∀ set ∈ entry.2.sets, set.contains '&' = false ∧ set.contains ';' = false := by
  decide +kernel

theorem kind_of_mem_bodies :
    ∀ entry ∈ bodies, (ConstructKind.ofName? entry.1).isSome = true := by
  decide +kernel

theorem interrupts_of_takes {text : List Char} {name : String} {body : Pattern}
    {first last : Nat} {passed : Pattern.Passed} (hmem : (name, body) ∈ bodies)
    (hinline : (ConstructKind.ofName? name).any ConstructKind.isInline = true)
    (htakes : Pattern.Takes ⟨none, text⟩ body first last passed) :
    '&' ∉ Grammar.piece text first last ∧ Text.Interrupts (Grammar.piece text first last) := by
  obtain ⟨hmeets, hsets⟩ := inline_of_mem_bodies _ hmem hinline
  have hchars : ∀ char ∈ Grammar.piece text first last,
      ∃ set : CharSet, set.contains char = true ∧ set.contains '&' = false ∧
        set.contains ';' = false := by
    intro char hchar
    obtain ⟨position, hfirst, hlast, hposition⟩ := Grammar.exists_position_of_mem_piece hchar
    obtain ⟨set, hset, hcontains⟩ := htakes.exists_set hfirst hlast hposition
    exact ⟨set, hcontains, hsets set hset⟩
  refine ⟨fun hamp => ?_, fun hsemicolon => ?_, ?_⟩
  · obtain ⟨set, hcontains, hnone, -⟩ := hchars '&' hamp
    exact absurd hcontains (Bool.eq_false_iff.mp hnone)
  · obtain ⟨set, hcontains, -, hnone⟩ := hchars ';' hsemicolon
    exact absurd hcontains (Bool.eq_false_iff.mp hnone)
  · obtain ⟨position, char, set, hfirst, hlast, hposition, hset, hcontains⟩ :=
      htakes.exists_of_meets hmeets
    exact ⟨char, Grammar.mem_piece hfirst hlast hposition, isAlphanum_of_isSign hset hcontains⟩

/-- All constructs that the tokens are for are inline ones. -/
def AllInline (tokens : List Grammar.Token) : Prop :=
  ∀ token ∈ tokens, (constructOf token).kind?.all ConstructKind.isInline = true

section

variable {text : List Char}

theorem interrupts_of_choice {place : Nat} {choice : Grammar.Choice}
    (h : Grammar.Reference.preferred? alternatives (Subject.behind ⟨none, text⟩ place) =
      some choice)
    (hinline : (constructOf (choice.token text place)).kind?.all ConstructKind.isInline = true) :
    '&' ∉ (choice.token text place).text.toList ∧
      Text.Interrupts (choice.token text place).text.toList := by
  obtain ⟨hmem, passed, htakes⟩ := takes_of_preferred? h
  have hwhole := htakes.of_behind
  rw [Nat.add_zero] at hwhole
  have htext : (choice.token text place).text.toList =
      Grammar.piece text place (place + choice.found.length) := String.toList_ofList
  rw [htext]
  refine interrupts_of_takes hmem ?_ hwhole
  obtain ⟨kind, hkind⟩ := Option.isSome_iff_exists.mp (kind_of_mem_bodies _ hmem)
  have hconstruct : constructOf (choice.token text place) =
      kind.construct (choice.token text place) := by
    rw [constructOf]
    simp only [Grammar.Choice.token, hkind]
  rw [hconstruct, Construct.kind?_construct, Option.all_some] at hinline
  rw [hkind, Option.any_some, hinline]

theorem contains_wordChar {char : Char} (h : char.isAlphanum = true) :
    wordChar.contains char = true := by
  have hranges : (decide ('A' ≤ char ∧ char ≤ 'Z') ||
      (decide ('a' ≤ char) && decide (char ≤ 'z')) ||
      (decide ('0' ≤ char) && decide (char ≤ '9'))) = true := h
  simp only [wordChar, CharSet.contains_union, CharSet.contains, Bool.or_eq_true,
    Bool.decide_and] at hranges ⊢
  rcases hranges with (hupper | hlower) | hdigit
  · exact .inr (.inl hupper)
  · exact .inl hlower
  · exact .inr (.inr (.inl hdigit))

/-- In a gap the references are those by name that the whole text has there. -/
theorem startsNamed_gap {first last : Nat} {second : List Char}
    (hpasses : ∀ position, first ≤ position → position < last →
      Grammar.Reference.Passes alternatives text position)
    (hsecond : second = [] ∨ ∃ inner rest, second = inner ++ rest ∧ Text.Interrupts inner)
    {before after : List Char} (h : Grammar.piece text first last = before ++ '&' :: after) :
    Text.startsNamed (after ++ second) = Text.startsReference after := by
  refine Text.startsNamed_append (fun hreference hhash => ?_) hsecond
  obtain ⟨rest, rfl⟩ := List.head?_eq_some_iff.mp hhash
  obtain ⟨char, more, rfl, hchar⟩ := Text.exists_of_numeric hreference
  have hsign : (Grammar.piece text first last)[before.length + 1]? = some '#' := by simp [h]
  have hnext : (Grammar.piece text first last)[before.length + 2]? = some char := by simp [h]
  obtain ⟨hlast, hsign⟩ := Grammar.getElem?_piece hsign
  obtain ⟨-, hnext⟩ := Grammar.getElem?_piece hnext
  exact not_passes_hash hsign hnext (contains_wordChar hchar)
    (hpasses _ (Nat.le_add_right _ _) hlast)

/-- Text with nothing in it but inline constructs, escaped token by token, is escaped as a whole
with the references by name in it kept. -/
theorem escapeKeeping_tokens (last : Nat)
    (hinline : AllInline (Grammar.Reference.tokens alternatives text last)) :
    (Grammar.Reference.tokens alternatives text last).flatMap
        (fun token => Text.escapeChars token.text.toList) =
      Text.escapeKeeping Text.startsNamed (text.drop last) := by
  fun_induction Grammar.Reference.tokens alternatives text last with
  | case1 last hnext hlt =>
      have hpasses : ∀ position, last ≤ position → position < text.length →
          Grammar.Reference.Passes alternatives text position := by
        intro position hfirst hlast
        refine Grammar.Reference.passes_of_next? hfirst (Nat.le_of_lt hlast) fun _ _ h => ?_
        cases hnext.symm.trans h
      have hgap : Text.escapeKeeping Text.startsNamed (Grammar.piece text last text.length ++ []) =
          Text.escapeKeeping Text.startsReference (Grammar.piece text last text.length) ++
            Text.escapeKeeping Text.startsNamed [] :=
        Text.escapeKeeping_append fun _ _ => startsNamed_gap hpasses (.inl rfl)
      have hdrop := Grammar.piece_append_drop text (Nat.le_of_lt hlt)
      rw [List.drop_length] at hdrop
      rw [hdrop] at hgap
      rw [hgap]
      simp [Grammar.otherToken, Text.escapeChars_eq, Text.escapeKeeping]
  | case2 last hnext hge =>
      rw [List.drop_eq_nil_of_le (Nat.le_of_not_lt hge)]
      rfl
  | case3 last place choice hnext ih =>
      obtain ⟨hle, hlength, -, hpreferred⟩ := Grammar.Reference.next?_sound hnext
      have hchoice := interrupts_of_choice hpreferred (hinline _ (by simp))
      have hrest := ih fun token hmem => hinline token (by simp [hmem])
      let stop := place + choice.found.length
      have hpasses : ∀ position, last ≤ position → position < place →
          Grammar.Reference.Passes alternatives text position := by
        intro position hfirst hlast
        refine Grammar.Reference.passes_of_next? hfirst (by omega) fun _ _ h => ?_
        cases hnext.symm.trans h
        exact hlast
      have htoken : (choice.token text place).text.toList = Grammar.piece text place stop :=
        String.toList_ofList
      rw [htoken] at hchoice
      have hgap : Text.escapeKeeping Text.startsNamed (text.drop last) =
          Text.escapeChars (Grammar.piece text last place) ++
            Text.escapeKeeping Text.startsNamed (text.drop place) := by
        rw [Text.escapeChars_eq, ← Grammar.piece_append_drop text hle]
        refine Text.escapeKeeping_append fun _ _ => startsNamed_gap hpasses (.inr ?_)
        exact ⟨_, _, (Grammar.piece_append_drop text (Nat.le_add_right _ _)).symm, hchoice.2⟩
      have hconstruct : Text.escapeKeeping Text.startsNamed (text.drop place) =
          Text.escapeChars (Grammar.piece text place stop) ++
            Text.escapeKeeping Text.startsNamed (text.drop stop) := by
        rw [Text.escapeChars_eq, ← Grammar.piece_append_drop text (Nat.le_add_right place _)]
        refine Text.escapeKeeping_append fun before after heq => absurd ?_ hchoice.1
        rw [heq]
        exact List.mem_append_right _ List.mem_cons_self
      rw [List.flatMap_append, List.flatMap_cons, hrest, htoken, hgap, hconstruct]
      congr 1
      split
      · simp [Grammar.otherToken]
      · next hge =>
          have hempty : Grammar.piece text last place = [] := by
            rw [Grammar.piece, List.drop_eq_nil_of_le]
            rw [List.length_take]
            omega
          rw [hempty]
          rfl

end

end Comment

end DocMarkup
