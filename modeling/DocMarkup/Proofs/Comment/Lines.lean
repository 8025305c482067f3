import DocMarkup.Proofs.Comment.Contexts

/-!
Constructs that are meant for one line.

An inclusion takes all that it can of its line, so it goes on to the last pair of braces that closes
it. The blanks between the hashes of a heading and its title may be line breaks.
-/

namespace DocMarkup

namespace Construct

/-- After the braces that open an inclusion, they are closed once before the line ends, and again on
the same line or after blanks. -/
inductive ClosesTwice : List Char → Prop
  | intro {blanks inner between gap rest : List Char} (hblanks : AllBlank blanks)
      (hline : '\n' ∉ inner ++ between) (hgap : AllBlank gap) :
      ClosesTwice ("\x7b\x7b".toList ++ blanks ++ inner ++ "\x7d\x7d".toList ++ between ++ gap ++
        "\x7d\x7d".toList ++ rest)

/-- Nothing but blanks stands after the hashes on their line. -/
inductive BreaksLine (level : Nat) : List Char → Prop
  | intro {blanks rest : List Char} (hblanks : AllBlank blanks) :
      BreaksLine level (List.replicate level '#' ++ blanks ++ '\n' :: rest)

end Construct

namespace Comment

open Construct (AllBlank StartsBlank ClosesTwice BreaksLine)
open ConstructKind (runs)

section

variable {before chars after piece : List Char}

theorem infix_of_infix_append_left (hpiece : ∀ char ∈ piece, Text.isBlank char = false)
    (hne : piece ≠ []) (hbefore : AllBlank before) (h : piece <:+: before ++ chars) :
    piece <:+: chars := by
  induction before with
  | nil => exact h
  | cons char before ih =>
      obtain ⟨hchar, hbefore⟩ := List.forall_mem_cons.mp hbefore
      rcases List.infix_cons_iff.mp h with hstart | hlater
      · obtain ⟨first, rest, rfl⟩ := List.exists_cons_of_ne_nil hne
        obtain ⟨rfl, -⟩ := List.cons_prefix_cons.mp hstart
        rw [hpiece first List.mem_cons_self] at hchar
        cases hchar
      · exact ih hbefore hlater

theorem infix_of_infix_append_right (hpiece : ∀ char ∈ piece, Text.isBlank char = false)
    (hne : piece ≠ []) (hafter : AllBlank after) (h : piece <:+: chars ++ after) :
    piece <:+: chars := by
  rw [← List.reverse_infix] at h ⊢
  rw [List.reverse_append] at h
  refine infix_of_infix_append_left ?_ (List.reverse_eq_nil_iff.not.mpr hne) ?_ h
  · exact fun char hmem => hpiece char (List.mem_reverse.mp hmem)
  · exact fun char hmem => hafter char (List.mem_reverse.mp hmem)

theorem infix_trimChars_iff (hpiece : ∀ char ∈ piece, Text.isBlank char = false)
    (hne : piece ≠ []) : piece <:+: Text.trimChars chars ↔ piece <:+: chars := by
  obtain ⟨before, after, hbefore, hafter, heq⟩ := Text.exists_eq_trimChars chars
  constructor
  · intro h
    rw [heq]
    exact h.trans (List.infix_append before _ after)
  · intro h
    rw [heq] at h
    exact infix_of_infix_append_left hpiece hne hbefore
      (infix_of_infix_append_right hpiece hne hafter h)

end

theorem isBlank_of_mem_closing :
    ∀ char ∈ "\x7d\x7d".toList, Text.isBlank char = false :=
  List.forall_mem_cons.mpr ⟨by decide, List.forall_mem_singleton.mpr (by decide)⟩

theorem readable_closing {gap rest : List Char} (hgap : AllBlank gap) :
    Readable [.blanks, .sign '\x7d', .sign '\x7d'] (gap ++ ("\x7d\x7d".toList ++ rest)) := by
  refine ⟨gap ++ "\x7d\x7d".toList, [], rest, ?_, (List.append_assoc ..).symm⟩
  simp only [reading_blanks_iff, reading_sign_iff, reading_nil_iff]
  exact ⟨gap, hgap, _, rfl, _, rfl, _, rfl, rfl, trivial⟩

theorem Readable.cons {run : Run} {runs : List Run} {first text : List Char}
    (h : Readable runs text) (hfirst : run.Admits first) : Readable (run :: runs) (first ++ text) := by
  obtain ⟨chars, values, rest, hreading, htext⟩ := h
  exact ⟨_, _, rest, .cons hfirst hreading, by rw [htext, List.append_assoc]⟩

theorem admits_lineRest {group : String} {chars : List Char} (h : '\n' ∉ chars) :
    (Run.lineRest group).Admits chars := by
  refine ⟨fun char hmem => ?_, trivial⟩
  have hne : char ≠ '\n' := fun heq => h (heq ▸ hmem)
  simp [Run.lineRest, hne]

/-- An inclusion is read from the start of the text. Its path takes all of its line that can be
followed by closing braces. -/
structure Includes (text before : List Char) (path : String) (after rest : List Char) : Prop where
  blankBefore : AllBlank before
  blankAfter : AllBlank after
  line : '\n' ∉ path.toList
  text_eq : text =
    "\x7b\x7b".toList ++ before ++ path.toList ++ after ++ "\x7d\x7d".toList ++ rest
  longest : ∀ {blanks inner gap more : List Char}, AllBlank blanks → '\n' ∉ inner → AllBlank gap →
    text = "\x7b\x7b".toList ++ blanks ++ inner ++ gap ++ "\x7d\x7d".toList ++ more →
      ∃ skipped, AllBlank skipped ∧ inner <+: skipped ++ path.toList

theorem exists_includes {text chars : List Char} {values : List (String × String)}
    (h : Longest (runs .inclusion) text chars values) :
    ∃ before path after rest, values = [("include_include_name", path)] ∧
      Includes text before path after rest := by
  obtain ⟨_, _, rfl, rfl, hbrace⟩ := h.exists_sign
  obtain ⟨_, _, rfl, rfl, hbraces⟩ := hbrace.exists_sign
  cases hbraces with
  | @cons _ _ before _ _ _ hbefore hstart hpaths =>
      cases hpaths with
      | @cons _ _ path left _ _ hpath hlongest hlast =>
          obtain ⟨rest, hleft⟩ := hlast.exists_rest
          have hreading := hlast.reading
          simp only [reading_blanks_iff, reading_sign_iff, reading_nil_iff] at hreading
          obtain ⟨after, hafter, _, rfl, _, rfl, _, rfl, rfl, rfl⟩ := hreading
          refine ⟨before, String.ofList path, after, rest, rfl, hbefore.contains, hafter, ?_, ?_, ?_⟩
          · rw [String.toList_ofList]
            exact newline_not_mem_of_admits hpath
          · simp [hleft]
          · intro blanks inner gap more hblanks hinner hgap htext
            rw [String.toList_ofList]
            have htext : before ++ (path ++ left) =
                blanks ++ (inner ++ (gap ++ ("\x7d\x7d".toList ++ more))) := by
              simpa using htext
            have hclosing : Readable [.blanks, .sign '\x7d', .sign '\x7d']
                (gap ++ ("\x7d\x7d".toList ++ more)) := readable_closing hgap
            obtain ⟨skipped, rfl⟩ := prefix_of_longest hstart htext ⟨hblanks, trivial⟩
              (hclosing.cons (admits_lineRest hinner))
            have hskipped : AllBlank skipped := fun char hmem =>
              hbefore.contains char (List.mem_append_right _ hmem)
            rw [List.append_assoc] at htext
            refine ⟨skipped, hskipped, ?_⟩
            rcases List.append_eq_append_iff.mp (List.append_cancel_left htext).symm with
              ⟨rest, rfl, -⟩ | ⟨rest, rfl, hrest⟩
            · exact (List.prefix_append _ _).trans (List.prefix_append _ _)
            · refine (List.prefix_append_right_inj skipped).mpr ?_
              refine prefix_of_longest hlongest hrest (admits_lineRest fun hmem => ?_) hclosing
              exact hinner (List.mem_append_right _ hmem)

theorem Includes.closesTwice_iff {text before after rest : List Char} {path : String}
    (h : Includes text before path after rest) :
    ClosesTwice text ↔ "\x7d\x7d".toList <:+: path.toList := by
  constructor
  · intro hcloses
    cases hcloses with
    | @intro blanks inner between gap more hblanks hinner hgap =>
        have hnewline : '\n' ∉ inner ++ "\x7d\x7d".toList ++ between := by
          simpa using hinner
        have hsplit : "\x7b\x7b".toList ++ blanks ++ inner ++ "\x7d\x7d".toList ++ between ++ gap ++
            "\x7d\x7d".toList ++ more = "\x7b\x7b".toList ++ blanks ++
              (inner ++ "\x7d\x7d".toList ++ between) ++ gap ++ "\x7d\x7d".toList ++ more := by
          simp only [List.append_assoc]
        obtain ⟨skipped, hskipped, hprefix⟩ := h.longest hblanks hnewline hgap hsplit
        exact infix_of_infix_append_left isBlank_of_mem_closing (by decide) hskipped
          ((List.infix_append _ _ _).trans hprefix.isInfix)
  · intro ⟨inner, between, hpath⟩
    have hline := h.line
    have hinner : '\n' ∉ inner ++ between := by
      simp only [← hpath, List.mem_append, not_or] at hline ⊢
      exact ⟨hline.1.1, hline.2⟩
    have hsplit : text = "\x7b\x7b".toList ++ before ++ inner ++ "\x7d\x7d".toList ++ between ++
        after ++ "\x7d\x7d".toList ++ rest := by
      rw [h.text_eq, ← hpath]
      simp
    rw [hsplit]
    exact .intro h.blankBefore hinner h.blankAfter

theorem startsBlank_append {blanks text : List Char} (hblanks : AllBlank blanks)
    (h : StartsBlank text) : StartsBlank (blanks ++ text) := by
  cases blanks with
  | nil => exact h
  | cons first blanks => exact ⟨first, rfl, hblanks first List.mem_cons_self⟩

theorem breaksLine_iff {level : Nat} {blanks text : List Char} (hblanks : AllBlank blanks)
    (hstart : ¬ StartsBlank text) :
    BreaksLine level (List.replicate level '#' ++ blanks ++ text) ↔ '\n' ∈ blanks := by
  constructor
  · generalize hchars : List.replicate level '#' ++ blanks ++ text = chars
    intro hbreaks
    cases hbreaks with
    | @intro early rest hearly =>
        have hnewline : StartsBlank ('\n' :: rest) := ⟨'\n', rfl, rfl⟩
        rw [List.append_assoc, List.append_assoc] at hchars
        rcases List.append_eq_append_iff.mp (List.append_cancel_left hchars) with
          ⟨more, rfl, rfl⟩ | ⟨more, rfl, hrest⟩
        · exact absurd (startsBlank_append (List.forall_mem_append.mp hearly).2 hnewline) hstart
        · cases more with
          | nil =>
              rw [List.nil_append] at hrest
              exact absurd (hrest ▸ hnewline) hstart
          | cons first more =>
              rw [← (List.cons.inj hrest).1]
              exact List.mem_append_right _ List.mem_cons_self
  · intro hmem
    obtain ⟨early, late, rfl⟩ := List.append_of_mem hmem
    have hbreaks : BreaksLine level
        (List.replicate level '#' ++ early ++ '\n' :: (late ++ text)) :=
      .intro (List.forall_mem_append.mp hblanks).1
    simpa using hbreaks

section

variable {rest : List Char} {token : Token}

theorem Captures.inclusion {chars : List Char} {path : String} {matched : Grammar.Token}
    (h : Captures .inclusion chars [("include_include_name", path)] matched) :
    ConstructKind.inclusion.construct matched = .inclusion (Text.trim path) := by
  have hproperty : matched.property? "include_name" = some path := h.property?_eq (.head _) (.head _)
  simp only [ConstructKind.construct, hproperty, Option.getD_some]

theorem Met.closing_infix_iff (h : Met rest token) {path : String}
    (hconstruct : token.construct = .inclusion path) :
    "\x7d\x7d".toList <:+: path.toList ↔ ClosesTwice (token.text.toList ++ rest) := by
  have hkind : token.construct.kind? = some .inclusion := by rw [hconstruct]; rfl
  obtain ⟨matched, values, hmatched, hlongest, hcaptures, -⟩ := h.exists_matched hkind
  obtain ⟨before, raw, after, more, rfl, hincludes⟩ := exists_includes hlongest
  have hconstructs : Construct.inclusion path = .inclusion (Text.trim raw) := by
    rw [← hconstruct, hmatched, hcaptures.inclusion]
  have htrim : (Text.trim raw).toList = Text.trimChars raw.toList := String.toList_ofList
  rw [Construct.inclusion.inj hconstructs, htrim, hincludes.closesTwice_iff]
  exact infix_trimChars_iff isBlank_of_mem_closing (by decide)

theorem Met.newline_mem_iff (h : Met rest token) {level : Nat} {title : String}
    (hconstruct : token.construct = .heading level title) :
    '\n' ∈ token.text.toList ↔ BreaksLine level (token.text.toList ++ rest) := by
  have hkind : token.construct.kind? = some .heading := by rw [hconstruct]; rfl
  obtain ⟨matched, values, hmatched, hlongest, hcaptures, -⟩ := h.exists_matched hkind
  obtain ⟨count, blanks, name, left, -, hne, hblanks, hline, hchars, htext, -, hstart⟩ :=
    exists_heading_parts hlongest
  have hlevel : level = count := by
    rw [hconstruct, ConstructKind.construct, hcaptures.text_eq, String.toList_ofList, hchars,
      List.append_assoc, length_takeWhile_hashes hne hblanks] at hmatched
    exact (Construct.heading.inj hmatched).1
  subst hlevel
  rw [htext, hchars, List.append_assoc _ _ left, breaksLine_iff hblanks hstart]
  simp [hline]

end

section

variable {grammar : Grammar} {text : String} {before after : List Token} {token : Token}

/-- An inclusion ends where its braces are closed first, unless they are closed again on the line
or after blanks. A heading stands on one line, unless nothing but blanks comes after its hashes. -/
theorem tokens_lines (hgrammar : compiled = .ok grammar)
    (h : tokens grammar text = before ++ token :: after) :
    text.toList = charsOf before ++ token.text.toList ++ charsOf after ∧
      (∀ path, token.construct = .inclusion path →
        ("\x7d\x7d".toList <:+: path.toList ↔
          ClosesTwice (token.text.toList ++ charsOf after))) ∧
      ∀ level title, token.construct = .heading level title →
        ('\n' ∈ token.text.toList ↔ BreaksLine level (token.text.toList ++ charsOf after)) := by
  obtain ⟨htext, hmet⟩ := met_of_tokens (isGrammar_of_compiled hgrammar) h
  exact ⟨htext, fun _ hconstruct => hmet.closing_infix_iff hconstruct,
    fun _ _ hconstruct => hmet.newline_mem_iff hconstruct⟩

/-- An inclusion and a heading that have each their own line. -/
theorem tokens_lines_apart :
    ∃ grammar, compiled = .ok grammar ∧
      tokens grammar "\x7b\x7b a \x7d\x7d\n# B" = [] ++
        ⟨.inclusion "a", "\x7b\x7b a \x7d\x7d"⟩ :: [⟨.newLine, "\n"⟩, ⟨.heading 1 "B", "# B"⟩] ∧
      ¬ ClosesTwice "\x7b\x7b a \x7d\x7d\n# B".toList ∧ ¬ BreaksLine 1 "# B".toList := by
  obtain ⟨grammar, hcompiled⟩ := exists_compiled
  have hinclusion : tokens Renderer.bare.grammar "\x7b\x7b a \x7d\x7d\n# B" = [] ++
      ⟨.inclusion "a", "\x7b\x7b a \x7d\x7d"⟩ :: [⟨.newLine, "\n"⟩, ⟨.heading 1 "B", "# B"⟩] := by
    decide +kernel
  rw [← tokens_eq (isGrammar_of_compiled hcompiled)] at hinclusion
  have hheading : tokens grammar "\x7b\x7b a \x7d\x7d\n# B" =
      [⟨.inclusion "a", "\x7b\x7b a \x7d\x7d"⟩, ⟨.newLine, "\n"⟩] ++
        ⟨.heading 1 "B", "# B"⟩ :: [] := hinclusion
  refine ⟨grammar, hcompiled, hinclusion, ?_, ?_⟩
  · exact mt ((tokens_lines hcompiled hinclusion).2.1 "a" rfl).mpr (by decide +kernel)
  · exact mt ((tokens_lines hcompiled hheading).2.2 1 "B" rfl).mpr (by decide +kernel)

/-- Two inclusions on one line are read as one, and a heading without a title takes the line after
it. -/
theorem not_lines_apart :
    ∃ grammar, compiled = .ok grammar ∧
      tokens grammar "\x7b\x7b a \x7d\x7d and \x7b\x7b b \x7d\x7d" =
        [⟨.inclusion "a \x7d\x7d and \x7b\x7b b",
          "\x7b\x7b a \x7d\x7d and \x7b\x7b b \x7d\x7d"⟩] ∧
      "\x7d\x7d".toList <:+: "a \x7d\x7d and \x7b\x7b b".toList ∧
      tokens grammar "# \nText" = [⟨.heading 1 "Text", "# \nText"⟩] ∧
      '\n' ∈ "# \nText".toList := by
  obtain ⟨grammar, hcompiled⟩ := exists_compiled
  have hgrammar := isGrammar_of_compiled hcompiled
  refine ⟨grammar, hcompiled, ?_, by decide +kernel, ?_, by decide +kernel⟩
  · rw [tokens_eq hgrammar]
    decide +kernel
  · rw [tokens_eq hgrammar]
    decide +kernel

end

end Comment

end DocMarkup
