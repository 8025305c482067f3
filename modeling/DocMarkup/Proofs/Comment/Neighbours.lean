import DocMarkup.Proofs.Comment.Contexts

/-!
What stands next to a construct.

A construct takes as much as it can, and a more specific one is preferred. So what follows a
construct never makes it longer or more specific, and neither does the end of a plain text before
it.
-/

namespace DocMarkup

namespace Construct

def IsWordChar (char : Char) : Prop :=
  char.isAlphanum = true ∨ char = '_'

def IsDashedWordChar (char : Char) : Prop :=
  char.isAlphanum = true ∨ char = '_' ∨ char = '-'

/-- The text after a construct would have been part of it, or of a more specific one. -/
inductive Continues : Construct → List Char → Prop
  | typeName {name : String} {char : Char} {rest : List Char} (hchar : IsWordChar char) :
      Continues (.typeName name) (char :: rest)
  | enumValue {name : String} {char : Char} {rest : List Char} (hchar : IsWordChar char) :
      Continues (.enumValue name) (char :: rest)
  | parameter {name : String} {char : Char} {rest : List Char} (hchar : IsWordChar char) :
      Continues (.parameter name) (char :: rest)
  | property {name : String} {char : Char} {rest : List Char} (hchar : IsDashedWordChar char) :
      Continues (.typeName name) (':' :: char :: rest)
  | signal {name : String} {char : Char} {rest : List Char} (hchar : IsDashedWordChar char) :
      Continues (.typeName name) (':' :: ':' :: char :: rest)
  | newLine {rest : List Char} : Continues .newLine ('\n' :: rest)
  | language {first second third language last rest : List Char} (hfirst : AllBlank first)
      (hsecond : AllBlank second) (hthird : AllBlank third) (hlanguage : IsWord language)
      (hlast : AllBlank last) :
      Continues .codeStart ("<!--".toList ++ first ++ "language".toList ++ second ++ ['='] ++
        third ++ ['"'] ++ language ++ ['"'] ++ last ++ "-->".toList ++ rest)

/-- The character before a construct would have been part of it. -/
inductive Extends (char : Char) : Construct → Prop
  | functionCall {symbol : String} (hchar : IsWordChar char) : Extends char (.functionCall symbol)
  | heading {level : Nat} {title : String} (hchar : char = '#') :
      Extends char (.heading level title)

end Construct

namespace Comment

open Construct (IsWordChar IsDashedWordChar IsWord AllBlank Continues Extends)

theorem contains_wordChar_of_isWordChar {char : Char} (h : IsWordChar char) :
    wordChar.contains char = true := by
  rcases h with halphanum | rfl
  · exact contains_wordChar halphanum
  · decide

theorem contains_dashedWordChar_of_isDashedWordChar {char : Char} (h : IsDashedWordChar char) :
    dashedWordChar.contains char = true := by
  have hword : wordChar.contains char = true ∨ char = '-' := by
    rcases h with halphanum | rfl | rfl
    · exact .inl (contains_wordChar halphanum)
    · exact .inl (by decide)
    · exact .inr rfl
  rcases hword with hword | rfl
  · simp only [wordChar, dashedWordChar, CharSet.contains_union, Bool.or_eq_true] at hword ⊢
    tauto
  · decide

section

variable {rest : List Char} {token : Token} {kind : ConstructKind}

theorem Met.not_readable (h : Met rest token) (hother : token.construct = .other)
    {first last : List Char} (htext : token.text.toList = first ++ last) (hne : last ≠ []) :
    ¬ Readable kind.runs (last ++ rest) := by
  cases h with
  | gap hpasses =>
      rw [String.toList_ofList] at htext
      exact hpasses first last htext hne kind
  | @construct kind matched =>
      have hkind := Construct.kind?_construct kind matched
      rw [show kind.construct matched = .other from hother] at hkind
      cases hkind

theorem Met.not_wordChar_next (h : Met rest token) (hkind : token.construct.kind? = some kind)
    {sign : Run} {group : String} (hruns : kind.runs = [sign] ++ [Run.word group])
    {char : Char} {more : List Char} (hrest : rest = char :: more) : ¬ IsWordChar char := by
  obtain ⟨_, _, -, hlongest, -⟩ := h.exists_matched hkind
  intro hchar
  rw [hruns] at hlongest
  have hnot := hlongest.not_contains_next (fun hone => nomatch hone) (by rw [hrest])
  rw [show (Run.word group).set = wordChar from rfl,
    contains_wordChar_of_isWordChar hchar] at hnot
  cases hnot

theorem Met.not_member_next (h : Met rest token) {name : String}
    (htype : token.construct = .typeName name) (kind : ConstructKind) (signs : List Char)
    {ownerGroup group : String}
    (hruns : kind.runs = Run.sign '#' :: Run.word ownerGroup ::
      (signs.map Run.sign ++ [Run.dashedWord group]))
    (hprecedes : kind.Precedes .typeName) {char : Char} {more : List Char}
    (hrest : rest = signs ++ char :: more) : ¬ IsDashedWordChar char := by
  have hkind : token.construct.kind? = some .typeName := by rw [htype]; rfl
  obtain ⟨_, _, -, hlongest, -, hfirst⟩ := h.exists_matched hkind
  intro hchar
  have hreading := hlongest.reading
  simp only [ConstructKind.runs, Run.word, reading_sign_iff, reading_group_iff,
    reading_nil_iff] at hreading
  obtain ⟨_, htext, owner, howner, _, rfl, _, -, rfl, -⟩ := hreading
  refine hfirst kind hprecedes ?_
  have hmember : (Run.dashedWord group).Admits [char] := by
    refine ⟨List.forall_mem_singleton.mpr ?_, List.cons_ne_nil _ _⟩
    exact contains_dashedWordChar_of_isDashedWordChar hchar
  rw [hruns]
  refine ⟨_, _, more, .cons (admits_sign_iff.mpr rfl) (.cons ⟨howner.contains, howner.allows⟩
    (reading_signs_iff.mpr ⟨_, rfl, .cons hmember .nil⟩)), ?_⟩
  simp [htext, hrest]

theorem Met.not_newline_next (h : Met rest token) (hline : token.construct = .newLine)
    (more : List Char) : rest ≠ '\n' :: more := by
  have hkind : token.construct.kind? = some .newLine := by rw [hline]; rfl
  obtain ⟨_, _, -, hlongest, -, hfirst⟩ := h.exists_matched hkind
  intro hrest
  have hreading := hlongest.reading
  simp only [ConstructKind.runs, reading_sign_iff, reading_nil_iff] at hreading
  obtain ⟨_, htext, rfl, -⟩ := hreading
  refine hfirst .newParagraph (by decide) ⟨['\n', '\n'], [], more, ?_, ?_⟩
  · simp [ConstructKind.runs, reading_sign_iff, reading_nil_iff]
  · rw [htext, hrest]
    rfl

theorem exists_reading_language {first second third language last : List Char}
    (hfirst : AllBlank first) (hsecond : AllBlank second) (hthird : AllBlank third)
    (hlanguage : IsWord language) (hlast : AllBlank last) :
    ∃ values, Reading (ConstructKind.runs .codeStartWithLanguage)
      ("|[<!--".toList ++ first ++ "language".toList ++ second ++ ['='] ++ third ++ ['"'] ++
        language ++ ['"'] ++ last ++ "-->".toList) values := by
  have hname : (Run.word "code_start_with_language_language_name").Admits
      (String.ofList language).toList := by
    rw [String.toList_ofList]
    exact ⟨fun char hmem => contains_wordChar_of_isWordChar (hlanguage.2 char hmem), hlanguage.1⟩
  refine ⟨[("code_start_with_language_language_name", String.ofList language)], ?_⟩
  simp only [ConstructKind.runs, Run.word, reading_signs_iff, reading_blanks_iff, reading_sign_iff,
    reading_group_iff, reading_nil_iff, List.append_assoc]
  refine ⟨_, rfl, first, hfirst, _, rfl, _, rfl, second, hsecond, _, rfl, _, rfl, third, hthird, _,
    rfl, _, rfl, _, hname, _, ?_, _, rfl, _, rfl, last, hlast, _, rfl, _, rfl, _, rfl, _, rfl, rfl,
    rfl⟩
  simp

theorem Met.not_language_next (h : Met rest token) (hstart : token.construct = .codeStart)
    {first second third language last more : List Char} (hfirst : AllBlank first)
    (hsecond : AllBlank second) (hthird : AllBlank third) (hlanguage : IsWord language)
    (hlast : AllBlank last) :
    rest ≠ "<!--".toList ++ first ++ "language".toList ++ second ++ ['='] ++ third ++ ['"'] ++
      language ++ ['"'] ++ last ++ "-->".toList ++ more := by
  have hkind : token.construct.kind? = some .codeStart := by rw [hstart]; rfl
  obtain ⟨_, _, -, hlongest, -, hnone⟩ := h.exists_matched hkind
  intro hrest
  have hreading := hlongest.reading
  simp only [ConstructKind.runs, reading_sign_iff, reading_nil_iff] at hreading
  obtain ⟨_, htext, _, rfl, rfl, -⟩ := hreading
  obtain ⟨_, hlonger⟩ := exists_reading_language hfirst hsecond hthird hlanguage hlast
  refine hnone .codeStartWithLanguage (by decide) ⟨_, _, more, hlonger, ?_⟩
  simp [htext, hrest]

theorem Met.not_continues (h : Met rest token) : ¬ token.construct.Continues rest := by
  intro hcontinues
  generalize hconstruct : token.construct = construct at hcontinues
  have hkind : token.construct.kind? = construct.kind? := congrArg _ hconstruct
  cases hcontinues with
  | typeName hchar | enumValue hchar | parameter hchar =>
      exact h.not_wordChar_next hkind rfl rfl hchar
  | property hchar => exact h.not_member_next hconstruct .property [':'] rfl (by decide) rfl hchar
  | signal hchar =>
      exact h.not_member_next hconstruct .signal [':', ':'] rfl (by decide) rfl hchar
  | newLine => exact h.not_newline_next hconstruct _ rfl
  | language hfirst hsecond hthird hlanguage hlast =>
      exact h.not_language_next hconstruct hfirst hsecond hthird hlanguage hlast rfl

theorem Met.not_contains_last {plain : Token} (h : Met (token.text.toList ++ rest) plain)
    (hother : plain.construct = .other) (htoken : Met rest token)
    (hkind : token.construct.kind? = some kind) {run : Run} {runs : List Run}
    (hruns : kind.runs = run :: runs) (hamount : run.amount ≠ .one) {char : Char}
    (hchar : plain.text.toList.getLast? = some char) : run.set.contains char = false := by
  obtain ⟨_, _, -, hlongest, -⟩ := htoken.exists_matched hkind
  obtain ⟨first, hfirst⟩ := List.getLast?_eq_some_iff.mp hchar
  have hreading := hlongest.reading
  rw [hruns] at hreading
  apply Bool.eq_false_iff.mpr
  intro hcontains
  obtain ⟨values, hlonger⟩ := hreading.exists_cons hamount hcontains
  rw [← hruns] at hlonger
  exact h.not_readable hother hfirst (List.cons_ne_nil _ _) ⟨_, values, rest, hlonger, rfl⟩

theorem Met.not_extends {plain : Token} (h : Met (token.text.toList ++ rest) plain)
    (hother : plain.construct = .other) (htoken : Met rest token) {char : Char}
    (hchar : plain.text.toList.getLast? = some char) : ¬ Extends char token.construct := by
  intro hextends
  generalize hconstruct : token.construct = construct at hextends
  have hkind : token.construct.kind? = construct.kind? := congrArg _ hconstruct
  cases hextends with
  | functionCall hword =>
      have hnot := h.not_contains_last hother htoken hkind rfl (by decide) hchar
      exact absurd (contains_wordChar_of_isWordChar hword) (Bool.eq_false_iff.mp hnot)
  | heading hhash =>
      have hnot := h.not_contains_last hother htoken hkind rfl (by decide) hchar
      rw [hhash] at hnot
      exact absurd hnot (by decide)

end

section

variable {grammar : Grammar} {text : String} {before after : List Token} {token : Token}

theorem rule_eq_none_of_other {text : List Char} {last : Nat} {matched : Grammar.Token}
    (hmem : matched ∈ Grammar.Reference.tokens alternatives text last)
    (hother : constructOf matched = .other) : matched.rule = none := by
  rcases exists_of_mem_tokens hmem with hrule | ⟨place, choice, rfl, hchoice⟩
  · exact hrule
  · obtain ⟨kind, values, hkind, -⟩ := exists_captures hchoice
    rw [constructOf] at hother
    simp only [Grammar.Choice.token, hkind] at hother
    have hsome := Construct.kind?_construct kind (choice.token text place)
    rw [show kind.construct (choice.token text place) = .other from hother] at hsome
    cases hsome

theorem not_other_of_adjacent (hgrammar : IsGrammar grammar) {plain : Token}
    (h : tokens grammar text = before ++ plain :: token :: after)
    (hother : plain.construct = .other) : token.construct ≠ .other := by
  rw [tokens, hgrammar.scan_eq] at h
  obtain ⟨first, rest, hsplit, -, hrest⟩ := List.map_eq_append_iff.mp h
  obtain ⟨matched, more, rfl, rfl, hmore⟩ := List.map_eq_cons_iff.mp hrest
  obtain ⟨next, last, rfl, rfl, -⟩ := List.map_eq_cons_iff.mp hmore
  have hseparated := Grammar.Reference.separated_tokens alternatives text.toList 0
  have hmem (other : Grammar.Token) (hother : other ∈ first ++ matched :: next :: last) :
      other ∈ Grammar.Reference.tokens alternatives text.toList 0 := hsplit ▸ hother
  rw [hsplit, Grammar.Separated, List.isChain_append_cons_cons] at hseparated
  intro hnext
  rcases hseparated.2.1 with hrule | hrule
  · exact hrule (rule_eq_none_of_other (hmem matched (by simp)) hother)
  · exact hrule (rule_eq_none_of_other (hmem next (by simp)) hnext)

/-- The text after a token never continues its construct, nor does the end of a plain text before
it extend it. Two plain texts are never next to each other. -/
theorem tokens_neighbours (hgrammar : compiled = .ok grammar)
    (h : tokens grammar text = before ++ token :: after) :
    text.toList = charsOf before ++ token.text.toList ++ charsOf after ∧
      ¬ token.construct.Continues (charsOf after) ∧
      ∀ plain, before.getLast? = some plain → plain.construct = .other →
        token.construct ≠ .other ∧
          ∀ char, plain.text.toList.getLast? = some char → ¬ Extends char token.construct := by
  have hgrammar := isGrammar_of_compiled hgrammar
  obtain ⟨htext, hmet⟩ := met_of_tokens hgrammar h
  refine ⟨htext, hmet.not_continues, fun plain hplain hother => ?_⟩
  obtain ⟨first, rfl⟩ := List.getLast?_eq_some_iff.mp hplain
  rw [List.append_assoc, List.singleton_append] at h
  obtain ⟨-, hmetPlain⟩ := met_of_tokens hgrammar h
  exact ⟨not_other_of_adjacent hgrammar h hother,
    fun char hchar => hmetPlain.not_extends hother hmet hchar⟩

/-- Two colons do not make a signal of a type unless a name follows them. -/
theorem tokens_neighbours_colons :
    ∃ grammar, compiled = .ok grammar ∧
      tokens grammar "#A:b (#B::)" =
        [⟨.property "A" "b", "#A:b"⟩, ⟨.other, " ("⟩] ++ ⟨.typeName "B", "#B"⟩ ::
          [⟨.other, "::)"⟩] ∧
      ¬ (Construct.typeName "B").Continues "::)".toList := by
  obtain ⟨grammar, hcompiled⟩ := exists_compiled
  have htokens : tokens Renderer.bare.grammar "#A:b (#B::)" =
      [⟨.property "A" "b", "#A:b"⟩, ⟨.other, " ("⟩] ++ ⟨.typeName "B", "#B"⟩ ::
        [⟨.other, "::)"⟩] := by decide +kernel
  rw [← tokens_eq (isGrammar_of_compiled hcompiled)] at htokens
  exact ⟨grammar, hcompiled, htokens, (tokens_neighbours hcompiled htokens).2.1⟩

end

end Comment

end DocMarkup
