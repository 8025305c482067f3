import DocMarkup.Proofs.Comment.Gaps
import DocMarkup.Proofs.Comment.Longest
import Mathlib.Data.List.DropRight

/-!
How constructs are written.

The text of a token is made of the parts that its construct names and of the signs of its kind. All
parts are captured by groups that took part in the match, so none of them is made up.
-/

namespace DocMarkup

namespace Construct

def IsWord (chars : List Char) : Prop :=
  chars ≠ [] ∧ ∀ char ∈ chars, char.isAlphanum = true ∨ char = '_'

def IsDashedWord (chars : List Char) : Prop :=
  chars ≠ [] ∧ ∀ char ∈ chars, char.isAlphanum = true ∨ char = '_' ∨ char = '-'

def AllBlank (chars : List Char) : Prop :=
  ∀ char ∈ chars, Text.isBlank char = true

def StartsBlank (chars : List Char) : Prop :=
  ∃ char, chars.head? = some char ∧ Text.isBlank char = true

def EndsBlank (chars : List Char) : Prop :=
  ∃ char, chars.getLast? = some char ∧ Text.isBlank char = true

/-- The characters that a construct is written with. -/
inductive Written : Construct → List Char → Prop
  | note {count : Nat} {before after : List Char} {contents : String} (hcount : 1 ≤ count)
      (hbefore : AllBlank before) (hline : '\n' ∉ contents.toList) (hafter : AllBlank after) :
      Written (.note contents)
        (List.replicate count '\n' ++ ['>'] ++ before ++ contents.toList ++ after ++ ['\n'])
  | newParagraph : Written .newParagraph ['\n', '\n']
  | newLine : Written .newLine ['\n']
  | codeStart : Written .codeStart "|[".toList
  | codeStartWithLanguage {first second third last : List Char} {language : String}
      (hfirst : AllBlank first) (hsecond : AllBlank second) (hthird : AllBlank third)
      (hlanguage : IsWord language.toList) (hlast : AllBlank last) :
      Written (.codeStartWithLanguage language)
        ("|[<!--".toList ++ first ++ "language".toList ++ second ++ ['='] ++ third ++
          ['"'] ++ language.toList ++ ['"'] ++ last ++ "-->".toList)
  | codeEnd : Written .codeEnd "]|".toList
  | property {owner name : String} (howner : IsWord owner.toList)
      (hname : IsDashedWord name.toList) :
      Written (.property owner name) (['#'] ++ owner.toList ++ [':'] ++ name.toList)
  | signal {owner name : String} (howner : IsWord owner.toList)
      (hname : IsDashedWord name.toList) :
      Written (.signal owner name) (['#'] ++ owner.toList ++ [':', ':'] ++ name.toList)
  | typeName {name : String} (hname : IsWord name.toList) :
      Written (.typeName name) (['#'] ++ name.toList)
  | enumValue {name : String} (hname : IsWord name.toList) :
      Written (.enumValue name) (['%'] ++ name.toList)
  | parameter {name : String} (hname : IsWord name.toList) :
      Written (.parameter name) (['@'] ++ name.toList)
  | functionCall {symbol : String} (hsymbol : IsWord symbol.toList) :
      Written (.functionCall symbol) (symbol.toList ++ "()".toList)
  | inclusion {before after : List Char} {path : String} (hbefore : AllBlank before)
      (hstart : ¬ StartsBlank path.toList) (hend : ¬ EndsBlank path.toList)
      (hline : '\n' ∉ path.toList) (hafter : AllBlank after) :
      Written (.inclusion path)
        ("\x7b\x7b".toList ++ before ++ path.toList ++ after ++ "\x7d\x7d".toList)
  | heading {level : Nat} {blanks : List Char} {title : String} (hlevel : 1 ≤ level)
      (hne : blanks ≠ []) (hblanks : AllBlank blanks) (hline : '\n' ∉ title.toList)
      (hstart : ¬ StartsBlank title.toList) :
      Written (.heading level title) (List.replicate level '#' ++ blanks ++ title.toList)

end Construct

namespace Text

open Construct (AllBlank StartsBlank EndsBlank)

theorem trimChars_eq (chars : List Char) :
    trimChars chars = (chars.dropWhile isBlank).rdropWhile isBlank :=
  rfl

theorem not_endsBlank_trimChars (chars : List Char) : ¬ EndsBlank (trimChars chars) := by
  intro ⟨char, hlast, hblank⟩
  rw [trimChars_eq] at hlast
  have hne := List.ne_nil_of_mem (List.mem_of_getLast? hlast)
  rw [List.getLast?_eq_some_getLast hne, Option.some.injEq] at hlast
  exact List.rdropWhile_last_not _ _ hne (by rwa [hlast])

theorem not_startsBlank_trimChars (chars : List Char) : ¬ StartsBlank (trimChars chars) := by
  intro ⟨char, hhead, hblank⟩
  rw [trimChars_eq] at hhead
  obtain ⟨rest, hrest⟩ := List.head?_eq_some_iff.mp hhead
  have hprefix := List.rdropWhile_prefix isBlank (chars.dropWhile isBlank)
  rw [hrest] at hprefix
  obtain ⟨after, hafter⟩ := hprefix
  have hnot := List.head?_dropWhile_not isBlank chars
  rw [← hafter] at hnot
  simp [hblank] at hnot

theorem exists_eq_trimChars (chars : List Char) :
    ∃ before after, AllBlank before ∧ AllBlank after ∧
      chars = before ++ trimChars chars ++ after := by
  refine ⟨chars.takeWhile isBlank, (chars.dropWhile isBlank).rtakeWhile isBlank, ?_, ?_, ?_⟩
  · exact fun char hmem => List.mem_takeWhile_imp hmem
  · exact fun char hmem => List.mem_rtakeWhile_imp hmem
  · rw [trimChars_eq, List.append_assoc, List.rdropWhile_append_rtakeWhile,
      List.takeWhile_append_dropWhile]

end Text

namespace ConstructKind

open Comment (Run)
open Comment.Run (sign signs blanks someBlanks word dashedWord lineRest)

/-- The construct of this kind, if all properties that it needs took part in the match. -/
def construct? (kind : ConstructKind) (token : Grammar.Token) : Option Construct :=
  match kind with
  | note => (token.property? "note_contents").map .note
  | newParagraph => some .newParagraph
  | newLine => some .newLine
  | codeStartWithLanguage => (token.property? "language_name").map .codeStartWithLanguage
  | codeStart => some .codeStart
  | codeEnd => some .codeEnd
  | property => do
      let owner ← token.property? "type_name"
      let name ← token.property? "property_name"
      return .property owner name
  | signal => do
      let owner ← token.property? "type_name"
      let name ← token.property? "signal_name"
      return .signal owner name
  | typeName => (token.property? "type_name").map .typeName
  | enumValue => (token.property? "member_name").map .enumValue
  | parameter => (token.property? "param_name").map .parameter
  | functionCall => (token.property? "symbol_name").map .functionCall
  | inclusion => (token.property? "include_name").map fun path => .inclusion (Text.trim path)
  | heading =>
      (token.property? "heading").map
        (.heading (token.text.toList.takeWhile (· == '#')).length)

/-- Where no property is missing, no default takes its place. -/
theorem construct_of_construct? {kind : ConstructKind} {token : Grammar.Token}
    {construct : Construct} (h : kind.construct? token = some construct) :
    kind.construct token = construct := by
  cases kind with
  | newParagraph | newLine | codeStart | codeEnd => exact Option.some.inj h
  | property | signal =>
      obtain ⟨owner, howner, hrest⟩ := Option.bind_eq_some_iff.mp h
      obtain ⟨name, hname, heq⟩ := Option.bind_eq_some_iff.mp hrest
      rw [← Option.some.inj heq, ConstructKind.construct]
      simp only [howner, hname, Option.getD_some]
  | _ =>
      obtain ⟨value, hvalue, heq⟩ := Option.map_eq_some_iff.mp h
      rw [← heq, ConstructKind.construct]
      simp only [hvalue, Option.getD_some]

/-- The runs that the pattern of a kind is made of. -/
def runs : ConstructKind → List Run
  | note => [signs '\n', sign '>', blanks, lineRest "note_note_contents", blanks, sign '\n']
  | newParagraph => [sign '\n', sign '\n']
  | newLine => [sign '\n']
  | codeStartWithLanguage =>
      ['|', '[', '<', '!', '-', '-'].map sign ++ blanks ::
        (['l', 'a', 'n', 'g', 'u', 'a', 'g', 'e'].map sign ++ [blanks, sign '=', blanks, sign '"',
          word "code_start_with_language_language_name", sign '"', blanks, sign '-', sign '-',
            sign '>'])
  | codeStart => [sign '|', sign '[']
  | codeEnd => [sign ']', sign '|']
  | property => [sign '#', word "property_type_name", sign ':', dashedWord "property_property_name"]
  | signal => [sign '#', word "signal_type_name", sign ':', sign ':',
      dashedWord "signal_signal_name"]
  | typeName => [sign '#', word "type_name_type_name"]
  | enumValue => [sign '%', word "enum_value_member_name"]
  | parameter => [sign '@', word "parameter_param_name"]
  | functionCall => [word "function_call_symbol_name", sign '(', sign ')']
  | inclusion => [sign '\x7b', sign '\x7b', blanks, lineRest "include_include_name", blanks,
      sign '\x7d', sign '\x7d']
  | heading => [signs '#', someBlanks, lineRest "heading_heading"]

def captures : ConstructKind → List (String × String)
  | note => [("note_contents", "note_note_contents")]
  | codeStartWithLanguage => [("language_name", "code_start_with_language_language_name")]
  | property =>
      [("type_name", "property_type_name"), ("property_name", "property_property_name")]
  | signal => [("type_name", "signal_type_name"), ("signal_name", "signal_signal_name")]
  | typeName => [("type_name", "type_name_type_name")]
  | enumValue => [("member_name", "enum_value_member_name")]
  | parameter => [("param_name", "parameter_param_name")]
  | functionCall => [("symbol_name", "function_call_symbol_name")]
  | inclusion => [("include_name", "include_include_name")]
  | heading => [("heading", "heading_heading")]
  | _ => []

theorem nodup_marks (kind : ConstructKind) : (kind.runs.flatMap Run.marks).Nodup := by
  cases kind <;> decide

theorem nodup_captures (kind : ConstructKind) : (kind.captures.map Prod.fst).Nodup := by
  cases kind <;> decide

end ConstructKind

namespace Comment

open Pattern (group)

theorem kind_of_mem_rules :
    ∀ entry ∈ bodies.zip rules, (ConstructKind.ofName? entry.1.1).map (fun kind =>
      (sequence (kind.runs.map Run.pattern), kind.captures)) =
        some (entry.1.2, entry.2.properties) := by
  decide +kernel

theorem isAlphanum_of_range {char : Char}
    (h : (CharSet.range 'a' 'z').contains char = true ∨
      (CharSet.range 'A' 'Z').contains char = true ∨
        (CharSet.range '0' '9').contains char = true) : char.isAlphanum = true := by
  show (decide ('A' ≤ char ∧ char ≤ 'Z') || (decide ('a' ≤ char) && decide (char ≤ 'z')) ||
    (decide ('0' ≤ char) && decide (char ≤ '9'))) = true
  simp only [CharSet.contains, Bool.or_eq_true, Bool.decide_and] at h ⊢
  rcases h with hlower | hupper | hdigit
  · exact .inl (.inr hlower)
  · exact .inl (.inl hupper)
  · exact .inr hdigit

theorem isAlphanum_or_contains {others : CharSet} {char : Char}
    (h : (CharSet.union (.range 'a' 'z')
      (.union (.range 'A' 'Z') (.union (.range '0' '9') others))).contains char = true) :
    char.isAlphanum = true ∨ others.contains char = true := by
  simp only [CharSet.contains_union, Bool.or_eq_true] at h
  rcases h with hlower | hupper | hdigit | hother
  · exact .inl (isAlphanum_of_range (.inl hlower))
  · exact .inl (isAlphanum_of_range (.inr (.inl hupper)))
  · exact .inl (isAlphanum_of_range (.inr (.inr hdigit)))
  · exact .inr hother

theorem isWord_of_admits {group : String} {chars : List Char}
    (h : (Run.word group).Admits chars) : Construct.IsWord chars := by
  refine ⟨h.allows, fun char hmem => (isAlphanum_or_contains (h.contains char hmem)).imp_right ?_⟩
  intro hsign
  rwa [CharSet.contains_single, beq_iff_eq] at hsign

theorem isDashedWord_of_admits {group : String} {chars : List Char}
    (h : (Run.dashedWord group).Admits chars) : Construct.IsDashedWord chars := by
  refine ⟨h.allows, fun char hmem => (isAlphanum_or_contains (h.contains char hmem)).imp_right ?_⟩
  intro hsign
  rwa [CharSet.contains_union, CharSet.contains_single, CharSet.contains_single, Bool.or_eq_true,
    beq_iff_eq, beq_iff_eq] at hsign

theorem newline_not_mem_of_admits {group : String} {chars : List Char}
    (h : (Run.lineRest group).Admits chars) : '\n' ∉ chars := by
  intro hmem
  have hcontains : (CharSet.complement (.single '\n')).contains '\n' = true :=
    h.contains '\n' hmem
  exact absurd hcontains (by decide)

/-- The token has the text of the reading, and its properties are values of the reading. -/
structure Captures (kind : ConstructKind) (chars : List Char) (values : List (String × String))
    (token : Grammar.Token) : Prop where
  text_eq : token.text = String.ofList chars
  property?_eq : ∀ {key group value : String}, (key, group) ∈ kind.captures →
    (group, value) ∈ values → token.property? key = some value

/-- The construct is made of captured properties alone, and it is written with the characters. -/
def Carries (kind : ConstructKind) (chars : List Char) (token : Grammar.Token) : Prop :=
  ∃ construct, kind.construct? token = some construct ∧ construct.Written chars

section

variable {chars : List Char} {values : List (String × String)} {token : Grammar.Token}

open ConstructKind (runs construct? captures)

theorem carries_note (h : Reading (runs .note) chars values)
    (hcaptures : Captures .note chars values token) : Carries .note chars token := by
  simp only [runs, Run.lineRest, reading_repeated_iff, reading_sign_iff, reading_blanks_iff,
    reading_group_iff, reading_nil_iff] at h
  obtain ⟨count, hcount, _, rfl, _, rfl, before, hbefore, _, rfl, contents, hcontents, _, rfl, _,
    rfl, after, hafter, _, rfl, _, rfl, rfl, rfl⟩ := h
  have hproperty := hcaptures.property?_eq (.head _) (.head _)
  refine ⟨.note contents, by simp [construct?, hproperty], ?_⟩
  simpa using Construct.Written.note hcount hbefore (newline_not_mem_of_admits hcontents) hafter

theorem carries_codeStartWithLanguage (h : Reading (runs .codeStartWithLanguage) chars values)
    (hcaptures : Captures .codeStartWithLanguage chars values token) :
    Carries .codeStartWithLanguage chars token := by
  simp only [runs, Run.word, reading_signs_iff, reading_blanks_iff, reading_sign_iff,
    reading_group_iff, reading_nil_iff] at h
  obtain ⟨_, rfl, first, hfirst, _, rfl, _, rfl, second, hsecond, _, rfl, _, rfl, third, hthird, _,
    rfl, _, rfl, language, hlanguage, _, rfl, _, rfl, _, rfl, last, hlast, _, rfl, _, rfl, _, rfl,
    _, rfl, rfl, rfl⟩ := h
  have hproperty := hcaptures.property?_eq (.head _) (.head _)
  refine ⟨.codeStartWithLanguage language, by simp [construct?, hproperty], ?_⟩
  simpa using Construct.Written.codeStartWithLanguage hfirst hsecond hthird
    (isWord_of_admits hlanguage) hlast

theorem carries_signed_word {kind : ConstructKind} {char : Char} {key group : String}
    {construct : String → Construct} (hruns : runs kind = [Run.sign char, Run.word group])
    (hkey : (key, group) ∈ captures kind)
    (hconstruct : construct? kind token = (token.property? key).map construct)
    (hwritten : ∀ {name : String}, Construct.IsWord name.toList →
      (construct name).Written ([char] ++ name.toList))
    (h : Reading (runs kind) chars values) (hcaptures : Captures kind chars values token) :
    Carries kind chars token := by
  rw [hruns] at h
  simp only [Run.word, reading_sign_iff, reading_group_iff, reading_nil_iff] at h
  obtain ⟨_, rfl, name, hname, _, rfl, _, rfl, rfl, rfl⟩ := h
  have hproperty := hcaptures.property?_eq hkey (.head _)
  refine ⟨construct name, by rw [hconstruct, hproperty, Option.map_some], ?_⟩
  simpa using hwritten (isWord_of_admits hname)

theorem carries_member {kind : ConstructKind} {signs : List Char} {key ownerGroup group : String}
    {construct : String → String → Construct}
    (hruns : runs kind = Run.sign '#' :: Run.word ownerGroup ::
      (signs.map Run.sign ++ [Run.dashedWord group]))
    (howner : ("type_name", ownerGroup) ∈ captures kind) (hkey : (key, group) ∈ captures kind)
    (hconstruct : construct? kind token = (token.property? "type_name").bind fun owner =>
      (token.property? key).bind fun name => some (construct owner name))
    (hwritten : ∀ {owner name : String}, Construct.IsWord owner.toList →
      Construct.IsDashedWord name.toList →
        (construct owner name).Written (['#'] ++ owner.toList ++ signs ++ name.toList))
    (h : Reading (runs kind) chars values) (hcaptures : Captures kind chars values token) :
    Carries kind chars token := by
  rw [hruns] at h
  simp only [Run.word, Run.dashedWord, reading_sign_iff, reading_group_iff, reading_signs_iff,
    reading_nil_iff] at h
  obtain ⟨_, rfl, owner, hownerChars, _, rfl, _, rfl, _, rfl, name, hname, _, rfl, _, rfl, rfl,
    rfl⟩ := h
  have hownerProperty := hcaptures.property?_eq howner (.head _)
  have hnameProperty := hcaptures.property?_eq hkey (.tail _ (.head _))
  refine ⟨construct owner name, ?_, ?_⟩
  · rw [hconstruct, hownerProperty, hnameProperty, Option.bind_some, Option.bind_some]
  · simpa using hwritten (isWord_of_admits hownerChars) (isDashedWord_of_admits hname)

theorem carries_signs {kind : ConstructKind} {signs : List Char} {construct : Construct}
    (hwritten : construct.Written signs) (hruns : runs kind = signs.map Run.sign)
    (hconstruct : construct? kind token = some construct)
    (h : Reading (runs kind) chars values) : Carries kind chars token := by
  rw [hruns] at h
  obtain ⟨rfl, -⟩ := reading_only_signs_iff.mp h
  exact ⟨construct, hconstruct, hwritten⟩

theorem carries_functionCall (h : Reading (runs .functionCall) chars values)
    (hcaptures : Captures .functionCall chars values token) :
    Carries .functionCall chars token := by
  simp only [runs, Run.word, reading_sign_iff, reading_group_iff, reading_nil_iff] at h
  obtain ⟨symbol, hsymbol, _, rfl, _, rfl, _, rfl, _, rfl, rfl, rfl⟩ := h
  have hproperty := hcaptures.property?_eq (.head _) (.head _)
  refine ⟨.functionCall symbol, by simp [construct?, hproperty], ?_⟩
  simpa using Construct.Written.functionCall (isWord_of_admits hsymbol)

theorem carries_inclusion (h : Reading (runs .inclusion) chars values)
    (hcaptures : Captures .inclusion chars values token) : Carries .inclusion chars token := by
  simp only [runs, Run.lineRest, reading_sign_iff, reading_blanks_iff, reading_group_iff,
    reading_nil_iff] at h
  obtain ⟨_, rfl, _, rfl, before, hbefore, _, rfl, path, hpath, _, rfl, _, rfl, after, hafter, _,
    rfl, _, rfl, _, rfl, rfl, rfl⟩ := h
  have hproperty := hcaptures.property?_eq (.head _) (.head _)
  refine ⟨.inclusion (Text.trim path), by simp [construct?, hproperty], ?_⟩
  have htrim : (Text.trim path).toList = Text.trimChars path.toList := String.toList_ofList
  obtain ⟨blanksBefore, blanksAfter, hblanksBefore, hblanksAfter, hchars⟩ :=
    Text.exists_eq_trimChars path.toList
  rw [← htrim] at hchars
  have hline : '\n' ∉ (Text.trim path).toList := fun hmem =>
    newline_not_mem_of_admits hpath (by rw [hchars]; simp [hmem])
  have hwritten := Construct.Written.inclusion
    (List.forall_mem_append.mpr ⟨hbefore, hblanksBefore⟩)
    (by rw [htrim]; exact Text.not_startsBlank_trimChars _)
    (by rw [htrim]; exact Text.not_endsBlank_trimChars _) hline
    (List.forall_mem_append.mpr ⟨hblanksAfter, hafter⟩)
  rw [hchars]
  simpa using hwritten

theorem length_takeWhile_hashes {level : Nat} {blanks title : List Char} (hne : blanks ≠ [])
    (hblanks : Construct.AllBlank blanks) :
    ((List.replicate level '#' ++ (blanks ++ title)).takeWhile (· == '#')).length = level := by
  obtain ⟨blank, blanks, rfl⟩ := List.exists_cons_of_ne_nil hne
  have hblank : blank ≠ '#' := by
    intro heq
    have hnot := hblanks '#' (heq ▸ List.mem_cons_self)
    exact absurd hnot (by decide)
  rw [List.takeWhile_append_of_pos (by simp), List.cons_append,
    List.takeWhile_cons_of_neg (by simpa using hblank), List.append_nil, List.length_replicate]

theorem exists_heading_parts {text : List Char} (h : Longest (runs .heading) text chars values) :
    ∃ level blanks title left, 1 ≤ level ∧ blanks ≠ [] ∧ Construct.AllBlank blanks ∧
      '\n' ∉ title.toList ∧ chars = List.replicate level '#' ++ blanks ++ title.toList ∧
      text = chars ++ left ∧ values = [("heading_heading", title)] ∧
      ¬ Construct.StartsBlank (title.toList ++ left) := by
  simp only [runs] at h
  cases h with
  | @cons _ _ hashes _ _ _ hhashes _ h =>
      cases h with
      | @cons _ _ blanks _ _ _ hblanks hlongest h =>
          cases h with
          | @cons _ _ title left _ _ htitle _ h =>
              cases h
              refine ⟨hashes.length, blanks, String.ofList title, left,
                List.length_pos_iff.mpr hhashes.allows, hblanks.allows, hblanks.contains, ?_, ?_,
                ?_, rfl, ?_⟩
              · rw [String.toList_ofList]
                exact newline_not_mem_of_admits htitle
              · rw [← eq_replicate_of_admits hhashes, String.toList_ofList]
                simp
              · simp
              · rw [String.toList_ofList]
                intro ⟨char, hhead, hblank⟩
                obtain ⟨rest, hrest⟩ := List.head?_eq_some_iff.mp hhead
                refine hlongest [char] rest hrest (List.cons_ne_nil _ _)
                  ⟨?_, List.append_ne_nil_of_left_ne_nil hblanks.allows _⟩ ?_
                · exact List.forall_mem_append.mpr
                    ⟨hblanks.contains, List.forall_mem_singleton.mpr hblank⟩
                · -- The title may be empty.
                  exact ⟨_, _, rest, .cons ⟨List.forall_mem_nil _, trivial⟩ .nil, rfl⟩

theorem carries_heading {text : List Char} (h : Longest (runs .heading) text chars values)
    (hcaptures : Captures .heading chars values token) : Carries .heading chars token := by
  obtain ⟨level, blanks, title, left, hlevel, hne, hblanks, hline, rfl, -, rfl, hstart⟩ :=
    exists_heading_parts h
  have hproperty := hcaptures.property?_eq (.head _) (.head _)
  refine ⟨.heading level title, ?_, .heading hlevel hne hblanks hline ?_⟩
  · rw [construct?, hproperty, hcaptures.text_eq, String.toList_ofList, List.append_assoc,
      length_takeWhile_hashes hne hblanks]
    rfl
  · intro ⟨char, hhead, hblank⟩
    exact hstart ⟨char, by rw [List.head?_append, hhead]; rfl, hblank⟩

theorem carries_of_longest {kind : ConstructKind} {text : List Char}
    (h : Longest kind.runs text chars values) (hcaptures : Captures kind chars values token) :
    Carries kind chars token := by
  cases kind with
  | note => exact carries_note h.reading hcaptures
  | newParagraph => exact carries_signs .newParagraph rfl rfl h.reading
  | newLine => exact carries_signs .newLine rfl rfl h.reading
  | codeStartWithLanguage => exact carries_codeStartWithLanguage h.reading hcaptures
  | codeStart => exact carries_signs .codeStart rfl rfl h.reading
  | codeEnd => exact carries_signs .codeEnd rfl rfl h.reading
  | property =>
      exact carries_member rfl (.head _) (.tail _ (.head _)) rfl .property h.reading hcaptures
  | signal => exact carries_member rfl (.head _) (.tail _ (.head _)) rfl .signal h.reading hcaptures
  | typeName => exact carries_signed_word rfl (.head _) rfl .typeName h.reading hcaptures
  | enumValue => exact carries_signed_word rfl (.head _) rfl .enumValue h.reading hcaptures
  | parameter => exact carries_signed_word rfl (.head _) rfl .parameter h.reading hcaptures
  | functionCall => exact carries_functionCall h.reading hcaptures
  | inclusion => exact carries_inclusion h.reading hcaptures
  | heading => exact carries_heading h hcaptures

end

theorem exists_kind {subject : Subject} {choice : Grammar.Choice}
    (h : Grammar.Reference.preferred? alternatives subject = some choice) :
    ∃ kind, ConstructKind.ofName? choice.alternative.name = some kind ∧
      sequence (kind.runs.map Run.pattern) = choice.alternative.pattern ∧
        kind.captures = choice.alternative.rule.properties := by
  obtain ⟨before, after, hsplit, -⟩ := Grammar.matches_of_preferred? h
  have hmem : (choice.alternative.named, choice.alternative.rule) ∈ bodies.zip rules := by
    rw [← alternatives_eq.1, hsplit]
    exact List.mem_map_of_mem (List.mem_append_right _ List.mem_cons_self)
  obtain ⟨kind, hkind, heq⟩ := Option.map_eq_some_iff.mp (kind_of_mem_rules _ hmem)
  obtain ⟨hpattern, hproperties⟩ := Prod.mk.inj heq
  exact ⟨kind, hkind, hpattern, hproperties⟩

theorem lookup_captured {rule : Grammar.Rule} {text : List Char} {found : Pattern.Match}
    {key group value : String} (hnodup : (rule.properties.map Prod.fst).Nodup)
    (hmem : (key, group) ∈ rule.properties)
    (hgroup : found.group? group text = some value.toList) :
    (Grammar.captured rule text found).lookup key = some value := by
  apply lookup_of_mem
  · rw [Grammar.captured, List.Nodup, List.pairwise_map, List.pairwise_filterMap]
    refine (List.pairwise_map.mp hnodup).imp fun {first second} hne => ?_
    intro entry hentry other hother
    obtain ⟨_, -, rfl⟩ := Option.map_eq_some_iff.mp hentry
    obtain ⟨_, -, rfl⟩ := Option.map_eq_some_iff.mp hother
    exact hne
  · refine List.mem_filterMap.mpr ⟨(key, group), hmem, ?_⟩
    simp only [hgroup, Option.map_some, String.ofList_toList]

theorem exists_captures {text : List Char} {place : Nat} {choice : Grammar.Choice}
    (h : Grammar.Reference.preferred? alternatives (Subject.behind ⟨none, text⟩ place) =
      some choice) :
    ∃ kind values, ConstructKind.ofName? choice.alternative.name = some kind ∧
      Longest kind.runs (text.drop place) (choice.token text place).text.toList values ∧
      Captures kind (choice.token text place).text.toList values (choice.token text place) := by
  obtain ⟨kind, hkind, hpattern, hproperties⟩ := exists_kind h
  obtain ⟨-, -, -, -, hfound, -⟩ := Grammar.matches_of_preferred? h
  rw [← hpattern] at hfound
  obtain ⟨chars, values, htaken⟩ := exists_taken hfound kind.nodup_marks
  have hpiece : Grammar.piece text place (place + choice.found.length) = chars := by
    rw [htaken.spans.eq_take, Grammar.piece, List.drop_take, Nat.add_sub_cancel_left]
    rfl
  have htext : (choice.token text place).text = String.ofList chars := by
    rw [← hpiece]
    rfl
  refine ⟨kind, values, hkind, ?_⟩
  rw [htext, String.toList_ofList]
  refine ⟨htaken.longest, htext, fun hkey hvalue => ?_⟩
  rw [hproperties] at hkey
  refine lookup_captured ?_ hkey ?_
  · rw [← hproperties]
    exact kind.nodup_captures
  · rw [hpiece]
    exact htaken.group?_eq hvalue

theorem carries_choice {text : List Char} {place : Nat} {choice : Grammar.Choice}
    (h : Grammar.Reference.preferred? alternatives (Subject.behind ⟨none, text⟩ place) =
      some choice) :
    ∃ kind, ConstructKind.ofName? choice.alternative.name = some kind ∧
      Carries kind (choice.token text place).text.toList (choice.token text place) := by
  obtain ⟨kind, values, hkind, hlongest, hcaptures⟩ := exists_captures h
  exact ⟨kind, hkind, carries_of_longest hlongest hcaptures⟩

theorem exists_of_mem_tokens {text : List Char} {last : Nat} {token : Grammar.Token}
    (h : token ∈ Grammar.Reference.tokens alternatives text last) :
    token.rule = none ∨ ∃ place choice, token = choice.token text place ∧
      Grammar.Reference.preferred? alternatives (Subject.behind ⟨none, text⟩ place) =
        some choice := by
  fun_induction Grammar.Reference.tokens alternatives text last with
  | case1 last hnext hlt =>
      rw [List.mem_singleton.mp h]
      exact .inl rfl
  | case2 => cases h
  | case3 last place choice hnext ih =>
      rcases List.mem_append.mp h with hother | hmem
      · split at hother
        · rw [List.mem_singleton.mp hother]
          exact .inl rfl
        · cases hother
      · rcases List.mem_cons.mp hmem with rfl | hmem
        · exact .inr ⟨place, choice, rfl, (Grammar.Reference.next?_sound hnext).2.2.2⟩
        · exact ih hmem

/-- How a token comes from what was matched: it has its text, and its construct is made of captured
properties alone and written with that text. -/
inductive Accounts (matched : Grammar.Token) : Token → Prop
  | other (h : matched.rule = none) : Accounts matched ⟨.other, matched.text⟩
  | construct {kind : ConstructKind} {construct : Construct}
      (hkind : ConstructKind.ofName? matched.name = some kind)
      (hconstruct : kind.construct? matched = some construct)
      (hwritten : construct.Written matched.text.toList) :
      Accounts matched ⟨construct, matched.text⟩

theorem accounts_of_mem_scan {grammar : Grammar} (hgrammar : IsGrammar grammar) {text : String}
    {matched : Grammar.Token} (h : matched ∈ grammar.scan text) :
    Accounts matched ⟨constructOf matched, matched.text⟩ := by
  rw [hgrammar.scan_eq] at h
  rcases exists_of_mem_tokens h with hrule | ⟨place, choice, rfl, hchoice⟩
  · rw [constructOf, hrule]
    exact .other hrule
  · obtain ⟨kind, hkind, construct, hconstruct, hwritten⟩ := carries_choice hchoice
    have heq : constructOf (choice.token text.toList place) = construct := by
      rw [← ConstructKind.construct_of_construct? hconstruct, constructOf]
      simp only [Grammar.Choice.token, hkind]
    rw [heq]
    exact .construct hkind hconstruct hwritten

theorem exists_compiled : ∃ grammar, compiled = .ok grammar := by
  cases hcompiled : compiled with
  | ok grammar => exact ⟨grammar, rfl⟩
  | error error =>
      have heq := compiled_eq
      rw [hcompiled] at heq
      cases heq

/-- The patterns of comments compile, and every token of a text is accounted for. -/
theorem tokens_written :
    ∃ grammar, compiled = .ok grammar ∧
      ∀ text, List.Forall₂ Accounts (grammar.scan text) (tokens grammar text) := by
  obtain ⟨grammar, hgrammar⟩ := exists_compiled
  refine ⟨grammar, hgrammar, fun text => ?_⟩
  rw [tokens, List.forall₂_map_right_iff, List.forall₂_same]
  exact fun matched hmem => accounts_of_mem_scan (isGrammar_of_compiled hgrammar) hmem

end Comment

end DocMarkup
