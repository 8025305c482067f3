import DocMarkup.Proofs.Pattern.Lexing

/-!
Groups behind a piece of a pattern.

An opening parenthesis is part of a lexeme that starts before it in three ways only: inside a
bracketed class, right after a backslash, or in a comment. So the groups that are put behind a
piece open where they are meant to, unless the piece ends in one of these.
-/

namespace DocMarkup

namespace Lexeme

section

variable [UnicodeClasses]

/-- The text ends inside a bracketed class. -/
def EndsInClass (modes : Modes) (text : List Char) : Prop :=
  (next (unread modes text).1.verbose (unread modes text).2).map Prod.fst = some '['

/-- The text ends right after the backslash of an escape. -/
def EndsInEscape (modes : Modes) (text : List Char) : Prop :=
  next (unread modes text).1.verbose (unread modes text).2 = some ('\\', [])

instance (modes : Modes) (text : List Char) : Decidable (EndsInClass modes text) :=
  inferInstanceAs (Decidable (_ = _))

instance (modes : Modes) (text : List Char) : Decidable (EndsInEscape modes text) :=
  inferInstanceAs (Decidable (_ = _))

end

section

variable {verbose : Bool} {input more rest : List Char}

theorem next_of_open {char : Char}
    (h : next verbose (input ++ '(' :: more) = some (char, rest))
    (hclosed : ¬ LeavesComment verbose input) :
    (∃ left, next verbose input = some (char, left) ∧ rest = left ++ '(' :: more) ∨
      char = '(' ∧ next verbose input = none := by
  cases hnext : next verbose input with
  | some result =>
      obtain ⟨first, left⟩ := result
      cases (stable_next verbose hnext ('(' :: more)).symm.trans h
      exact .inl ⟨left, rfl, rfl⟩
  | none =>
      rw [next_append_of_eq_none hnext hclosed, next_delimiter (by decide)] at h
      cases h
      exact .inr ⟨rfl, rfl⟩

theorem braced_of_open {chars : List Char}
    (h : braced verbose (input ++ '(' :: more) = some (chars, rest)) (hchars : '(' ∉ chars)
    (hclosed : ¬ LeavesComment verbose input) :
    ∃ left, braced verbose input = some (chars, left) := by
  rw [braced] at h ⊢
  fun_induction bracedFrom verbose input generalizing chars rest with
  | case1 input hnext =>
      have hopen : next verbose (input ++ '(' :: more) = some ('(', more) := by
        rw [next_append_of_eq_none hnext hclosed, next_delimiter (by decide)]
      rw [bracedFrom_of_next hopen, if_neg (by decide)] at h
      obtain ⟨⟨others, left⟩, -, heq⟩ := Option.map_eq_some_iff.mp h
      cases heq
      exact absurd List.mem_cons_self hchars
  | case2 input after hnext =>
      rw [bracedFrom_of_next (stable_next verbose hnext _), if_pos rfl] at h
      cases h
      exact ⟨after, rfl⟩
  | case3 input char after hnext hchar ih =>
      rw [bracedFrom_of_next (stable_next verbose hnext _), if_neg hchar] at h
      obtain ⟨⟨others, left⟩, hothers, heq⟩ := Option.map_eq_some_iff.mp h
      cases heq
      have hafter := not_leavesComment_of_suffix hclosed (leavesSuffix_next verbose hnext)
      obtain ⟨left, hleft⟩ := ih hothers (fun hmem => hchars (List.mem_cons_of_mem _ hmem)) hafter
      exact ⟨left, by rw [hleft]; rfl⟩

theorem counted_of_open {count : Nat} {chars : List Char}
    (h : counted verbose count (input ++ '(' :: more) = some (chars, rest)) (hchars : '(' ∉ chars)
    (hclosed : ¬ LeavesComment verbose input) :
    ∃ left, counted verbose count input = some (chars, left) := by
  induction count generalizing input chars rest with
  | zero =>
      obtain ⟨rfl, -⟩ := pure_eq_some_iff.mp h
      exact ⟨input, rfl⟩
  | succ count ih =>
      obtain ⟨first, left, hfirst, h⟩ := bind_eq_some_iff.mp h
      obtain ⟨others, after, hothers, h⟩ := bind_eq_some_iff.mp h
      obtain ⟨rfl, -⟩ := pure_eq_some_iff.mp h
      obtain ⟨hne, hothersNot⟩ := not_or.mp (fun hmem => hchars (List.mem_cons.mpr hmem))
      rcases next_of_open hfirst hclosed with ⟨middle, hnext, rfl⟩ | ⟨hopen, -⟩
      · have hmiddle := not_leavesComment_of_suffix hclosed (leavesSuffix_next verbose hnext)
        obtain ⟨last, hlast⟩ := ih hothers hothersNot hmiddle
        exact ⟨last, bind_eq_some_iff.mpr ⟨first, middle, hnext,
          bind_eq_some_iff.mpr ⟨others, last, hlast, rfl⟩⟩⟩
      · exact absurd hopen.symm hne

theorem isHexDigit_of_codePoint? {digits : List Char} {char : Char}
    (h : codePoint? digits = some char) : ∀ digit ∈ digits, Text.isHexDigit digit = true := by
  unfold codePoint? at h
  simp only at h
  split at h
  · next hdigits =>
      simp only [Bool.and_eq_true] at hdigits
      exact List.all_eq_true.mp hdigits.1.2
  · cases h

theorem not_mem_of_codePoint? {digits : List Char} {char : Char}
    (h : codePoint? digits = some char) : '(' ∉ digits := by
  intro hmem
  exact absurd (isHexDigit_of_codePoint? h '(' hmem) (by decide)

theorem look_of_open {char : Char}
    (h : look verbose (input ++ '(' :: more) = some (char, rest))
    (hclosed : ¬ LeavesComment verbose input) :
    rest = input ++ '(' :: more ∧
      (look verbose input = some (char, input) ∨ char = '(' ∧ next verbose input = none) := by
  obtain ⟨⟨first, left⟩, hfirst, heq⟩ := Option.map_eq_some_iff.mp h
  cases heq
  refine ⟨rfl, (next_of_open hfirst hclosed).imp_left fun ⟨middle, hnext, _⟩ => ?_⟩
  rw [look, hnext, Option.map_some]

theorem readCodePoint_of_open {width : Nat} {item : Expression}
    (h : readCodePoint verbose (width + 1) (input ++ '(' :: more) = some (item, rest))
    (hclosed : ¬ LeavesComment verbose input) :
    ∃ left, readCodePoint verbose (width + 1) input = some (item, left) := by
  obtain ⟨first, whole, hfirst, h⟩ := bind_eq_some_iff.mp h
  obtain ⟨rfl, hlook⟩ := look_of_open hfirst hclosed
  split at h
  · next hbrace =>
      obtain ⟨brace, middle, hnext, h⟩ := bind_eq_some_iff.mp h
      obtain ⟨digits, after, hdigits, h⟩ := bind_eq_some_iff.mp h
      obtain ⟨char, _, hlift, h⟩ := bind_eq_some_iff.mp h
      have hchar : codePoint? digits = some char := (lift_eq_some_iff.mp hlift).1
      obtain ⟨rfl, -⟩ := pure_eq_some_iff.mp h
      have hlook := hlook.resolve_right fun hopen => absurd (hbrace.symm.trans hopen.1) (by decide)
      obtain ⟨⟨other, body⟩, hbody, -⟩ := Option.map_eq_some_iff.mp hlook
      cases (stable_next verbose hbody ('(' :: more)).symm.trans hnext
      have hbodyClosed := not_leavesComment_of_suffix hclosed (leavesSuffix_next verbose hbody)
      obtain ⟨left, hleft⟩ := braced_of_open hdigits (not_mem_of_codePoint? hchar) hbodyClosed
      refine ⟨left, bind_eq_some_iff.mpr ⟨first, input, hlook, ?_⟩⟩
      rw [if_pos hbrace]
      exact bind_eq_some_iff.mpr ⟨_, body, hbody, bind_eq_some_iff.mpr ⟨digits, left, hleft,
        bind_eq_some_iff.mpr ⟨char, left, lift_eq_some_iff.mpr ⟨hchar, rfl⟩, rfl⟩⟩⟩
  · next hbrace =>
      obtain ⟨digits, after, hdigits, h⟩ := bind_eq_some_iff.mp h
      obtain ⟨char, _, hlift, h⟩ := bind_eq_some_iff.mp h
      have hchar : codePoint? digits = some char := (lift_eq_some_iff.mp hlift).1
      obtain ⟨rfl, -⟩ := pure_eq_some_iff.mp h
      obtain ⟨left, hleft⟩ := counted_of_open hdigits (not_mem_of_codePoint? hchar) hclosed
      obtain ⟨_, _, hnext, -⟩ := bind_eq_some_iff.mp hleft
      have hlook := hlook.resolve_right fun hopen => nomatch hopen.2.symm.trans hnext
      refine ⟨left, bind_eq_some_iff.mpr ⟨first, input, hlook, ?_⟩⟩
      rw [if_neg hbrace]
      exact bind_eq_some_iff.mpr ⟨digits, left, hleft,
        bind_eq_some_iff.mpr ⟨char, left, lift_eq_some_iff.mpr ⟨hchar, rfl⟩, rfl⟩⟩

theorem not_mem_of_edge {name : List Char} {edge : WordEdge}
    (h : edges.lookup (String.ofList name) = some edge) : '(' ∉ name := by
  have hnames : ∀ entry ∈ edges, '(' ∉ entry.1.toList := by decide
  obtain ⟨before, after, hedges, -⟩ := List.lookup_eq_some_iff.mp h
  have hname := hnames (String.ofList name, edge) (by simp [hedges])
  rwa [String.toList_ofList] at hname

theorem readEdge_of_open {item : Expression}
    (h : readEdge verbose (input ++ '(' :: more) = some (item, rest))
    (hclosed : ¬ LeavesComment verbose input) :
    (readEdge verbose input).isSome = true ∨
      ∃ body, input = '\x7b' :: body ∧ rest = input ++ '(' :: more ∧
        next verbose body = none := by
  cases input with
  | nil => exact .inl rfl
  | cons first body =>
      by_cases hbrace : first = '\x7b'
      · subst hbrace
        have hbodyClosed := not_leavesComment_of_suffix hclosed (List.suffix_cons _ _)
        rw [List.cons_append, readEdge] at h
        rw [readEdge]
        cases hnext : next verbose body with
        | none =>
            rw [next_append_of_eq_none hnext hbodyClosed, next_delimiter (by decide)] at h
            cases h
            exact .inr ⟨body, rfl, rfl, hnext⟩
        | some result =>
            obtain ⟨start, left⟩ := result
            refine .inl ?_
            simp only [stable_next verbose hnext] at h ⊢
            split at h
            · next hstart =>
                obtain ⟨⟨name, after⟩, hname, h⟩ := Option.bind_eq_some_iff.mp h
                obtain ⟨edge, hedge, -⟩ := Option.bind_eq_some_iff.mp h
                obtain ⟨after, hafter⟩ := braced_of_open hname (not_mem_of_edge hedge) hbodyClosed
                simp [hstart, hafter, hedge]
            · next hstart => rw [if_neg hstart]; rfl
      · refine .inl ?_
        unfold readEdge
        split
        · next heq => exact absurd (List.cons.inj heq).1 hbrace
        · rfl

theorem eq_of_splitAt? {mark chars before after : List Char}
    (h : splitAt? mark chars = some (before, after)) : chars = before ++ mark ++ after := by
  induction chars generalizing before with
  | nil => cases h
  | cons char chars ih =>
      rw [splitAt?] at h
      split at h
      · next hafter =>
          cases h
          exact Text.afterChars?_eq_some_iff.mp hafter
      · obtain ⟨⟨others, left⟩, hothers, heq⟩ := Option.map_eq_some_iff.mp h
        cases heq
        rw [ih hothers]
        rfl

theorem mem_queryOf {name : List Char} (h : '(' ∈ name) : '(' ∈ (queryOf name).2.chars := by
  have hsplit {mark before after : List Char} (hmark : '(' ∉ mark)
      (heq : splitAt? mark name = some (before, after)) : '(' ∈ before ++ after := by
    rw [eq_of_splitAt? heq, List.append_assoc] at h
    simpa [hmark] using h
  unfold queryOf
  split
  · next hfound => exact hsplit (by decide) hfound
  · split
    · next hfound =>
        cases hcolon : splitAt? [':'] name with
        | some found =>
            rw [hcolon] at hfound
            cases hfound
            exact hsplit (by decide) hcolon
        | none =>
            rw [hcolon] at hfound
            exact hsplit (by decide) hfound
    · exact h

variable [UnicodeClasses]

theorem readClass_of_open {negated : Bool} {item : Expression}
    (h : readClass verbose negated (input ++ '(' :: more) = some (item, rest))
    (hclosed : ¬ LeavesComment verbose input) :
    ∃ left, readClass verbose negated input = some (item, left) := by
  obtain ⟨first, middle, hfirst, h⟩ := bind_eq_some_iff.mp h
  have hopen : first ≠ '(' := by
    rintro rfl
    obtain ⟨set, left, hset, -⟩ := bind_eq_some_iff.mp h
    exact (UnicodeClasses.plain (lift_eq_some_iff.mp hset).1).1 (List.mem_singleton.mpr rfl)
  obtain ⟨body, hbody, rfl⟩ := (next_of_open hfirst hclosed).resolve_right fun h => hopen h.1
  have hbodyClosed := not_leavesComment_of_suffix hclosed (leavesSuffix_next verbose hbody)
  by_cases hbrace : first = '\x7b'
  · rw [if_pos hbrace] at h
    obtain ⟨name, after, hname, h⟩ := bind_eq_some_iff.mp h
    obtain ⟨set, _, hlift, h⟩ := bind_eq_some_iff.mp h
    have hset : UnicodeClasses.set? (queryOf name).2 = some set := (lift_eq_some_iff.mp hlift).1
    obtain ⟨rfl, -⟩ := pure_eq_some_iff.mp h
    have hplain : '(' ∉ name := fun hmem => (UnicodeClasses.plain hset).1 (mem_queryOf hmem)
    obtain ⟨left, hleft⟩ := braced_of_open hname hplain hbodyClosed
    refine ⟨left, bind_eq_some_iff.mpr ⟨first, body, hbody, ?_⟩⟩
    rw [if_pos hbrace]
    exact bind_eq_some_iff.mpr ⟨name, left, hleft,
      bind_eq_some_iff.mpr ⟨set, left, lift_eq_some_iff.mpr ⟨hset, rfl⟩, rfl⟩⟩
  · rw [if_neg hbrace] at h
    by_cases hescape : first = '\\'
    · rw [if_pos hescape] at h
      cases h
    · rw [if_neg hescape] at h
      obtain ⟨set, _, hlift, h⟩ := bind_eq_some_iff.mp h
      obtain ⟨rfl, -⟩ := pure_eq_some_iff.mp h
      refine ⟨body, bind_eq_some_iff.mpr ⟨first, body, hbody, ?_⟩⟩
      rw [if_neg hbrace, if_neg hescape]
      exact bind_eq_some_iff.mpr ⟨set, body,
        lift_eq_some_iff.mpr ⟨(lift_eq_some_iff.mp hlift).1, rfl⟩, rfl⟩

theorem readEscaped_of_open {letter : Char} {item : Expression}
    (h : readEscaped verbose letter (input ++ '(' :: more) = some (item, rest))
    (hclosed : ¬ LeavesComment verbose input) :
    (readEscaped verbose letter input).isSome = true ∨
      ∃ body, input = '\x7b' :: body ∧ rest = input ++ '(' :: more ∧
        next verbose body = none := by
  unfold readEscaped at h ⊢
  split at h
  · obtain ⟨left, hleft⟩ := readCodePoint_of_open h hclosed
    exact .inl (Option.isSome_of_eq_some hleft)
  · obtain ⟨left, hleft⟩ := readCodePoint_of_open h hclosed
    exact .inl (Option.isSome_of_eq_some hleft)
  · obtain ⟨left, hleft⟩ := readCodePoint_of_open h hclosed
    exact .inl (Option.isSome_of_eq_some hleft)
  · obtain ⟨left, hleft⟩ := readClass_of_open h hclosed
    exact .inl (Option.isSome_of_eq_some hleft)
  · obtain ⟨left, hleft⟩ := readClass_of_open h hclosed
    exact .inl (Option.isSome_of_eq_some hleft)
  · exact readEdge_of_open h hclosed
  · split at h
    · next hpunctuation =>
        rw [if_pos hpunctuation]
        exact .inl rfl
    · next hpunctuation =>
        rw [if_neg hpunctuation]
        have hletter : (liftM (ofLetter? letter) : Read Expression) input = some (item, input) :=
          lift_eq_some_iff.mpr ⟨(lift_eq_some_iff.mp h).1, rfl⟩
        exact .inl (Option.isSome_of_eq_some hletter)

end

section

variable {verbose : Bool} {input more rest : List Char} {lexeme : Lexeme}

theorem dropWhile_ne_nil (test : Char → Bool) (htest : test '(' = true)
    (h : '(' ∉ (input ++ '(' :: more).takeWhile test) :
    ∃ first rest, input.dropWhile test = first :: rest := by
  refine List.exists_cons_of_ne_nil fun hnil => h ?_
  rw [List.takeWhile_append_of_pos (List.dropWhile_eq_nil_iff.mp hnil),
    List.takeWhile_cons_of_pos htest]
  simp

theorem not_mem_of_isName {chars : List Char} (h : GroupReader.isName chars = true) :
    '(' ∉ chars := by
  have hstart : GroupReader.isNameStart '(' = false := by decide +kernel
  have hchar : GroupReader.isNameChar '(' = false := by decide +kernel
  cases chars with
  | nil => exact List.not_mem_nil
  | cons first rest =>
      rw [GroupReader.isName, Bool.and_eq_true, List.all_eq_true] at h
      intro hmem
      cases hmem with
      | head => exact absurd h.1 (by simp [hstart])
      | tail _ hmem => exact absurd (h.2 '(' hmem) (by simp [hchar])

theorem readName_of_open {name : String}
    (h : GroupReader.readName (input ++ '(' :: more) = some (name, rest)) :
    ∃ left, GroupReader.readName input = some (name, left) := by
  obtain ⟨hname, heq⟩ := readName_eq_some_iff.mp h
  have hnot := not_mem_of_isName hname.isName
  rcases List.append_eq_append_iff.mp heq with ⟨taken, htaken, hrest⟩ | ⟨left, rfl, hrest⟩
  · cases taken with
    | nil => exact absurd (List.cons.inj hrest).1 (by decide)
    | cons first taken =>
        rw [htaken, ← (List.cons.inj hrest).1] at hnot
        exact absurd (by simp) hnot
  · cases left with
    | nil => exact absurd (List.cons.inj hrest).1 (by decide)
    | cons first left =>
        rw [← (List.cons.inj hrest).1]
        exact ⟨left, readName_eq_some_iff.mpr ⟨hname, rfl⟩⟩

theorem flag?_of_changes? {value : Bool} {seen : List Flag} {chars : List Char}
    {changes : FlagChanges} (h : GroupReader.changes? value seen chars = some changes) :
    ∀ char ∈ chars, char = '-' ∨ (GroupReader.flag? char).isSome = true := by
  fun_induction GroupReader.changes? value seen chars generalizing changes with
  | case1 => exact List.forall_mem_nil _
  | case2 => cases h
  | case3 seen rest hrest ih =>
      exact List.forall_mem_cons.mpr ⟨.inl rfl, ih h⟩
  | case4 value seen char rest hdash ih =>
      obtain ⟨flag, hflag, h⟩ := Option.bind_eq_some_iff.mp h
      split at h
      · cases h
      · obtain ⟨later, hlater, -⟩ := Option.bind_eq_some_iff.mp h
        exact List.forall_mem_cons.mpr ⟨.inr (by rw [hflag]; rfl), ih flag hlater⟩

theorem not_mem_of_changes? {value : Bool} {seen : List Flag} {chars : List Char}
    {changes : FlagChanges} (h : GroupReader.changes? value seen chars = some changes) :
    '(' ∉ chars := by
  intro hmem
  exact absurd (flag?_of_changes? h '(' hmem) (by decide)

theorem not_mem_of_readFlags (h : GroupReader.readFlags input = some (lexeme, rest)) :
    '(' ∉ input.takeWhile GroupReader.isFlagChar := by
  unfold GroupReader.readFlags at h
  simp only at h
  split at h
  · obtain ⟨changes, hchanges, -⟩ := Option.map_eq_some_iff.mp h
    exact not_mem_of_changes? hchanges
  · split at h
    · cases h
    · obtain ⟨changes, hchanges, -⟩ := Option.map_eq_some_iff.mp h
      exact not_mem_of_changes? hchanges
  · cases h

theorem readFlags_of_open (h : GroupReader.readFlags (input ++ '(' :: more) = some (lexeme, rest)) :
    (GroupReader.readFlags input).isSome = true := by
  obtain ⟨closing, after, hdrop⟩ := dropWhile_ne_nil _ rfl (not_mem_of_readFlags h)
  unfold GroupReader.readFlags at h ⊢
  simp only [dropWhile_append_of_dropWhile hdrop, takeWhile_append_of_dropWhile hdrop, hdrop] at h ⊢
  by_cases hcolon : closing = ':'
  · subst hcolon
    obtain ⟨changes, hchanges, -⟩ := Option.map_eq_some_iff.mp h
    rw [hchanges]
    rfl
  · split at h
    · next heq => exact absurd (List.cons.inj heq).1 hcolon
    · split at h
      · cases h
      · next hwritten =>
          obtain ⟨changes, hchanges, -⟩ := Option.map_eq_some_iff.mp h
          rw [if_neg hwritten, hchanges]
          rfl
    · next heq => cases heq

theorem marksName_of_append (h : GroupReader.MarksName (input ++ '(' :: more)) :
    GroupReader.MarksName input := by
  obtain ⟨name, heq⟩ := h
  match input with
  | [] => rcases heq with heq | heq <;> cases heq
  | [first] =>
      rcases heq with heq | heq
      · cases heq
      · cases heq
        exact ⟨[], .inr rfl⟩
  | first :: second :: input =>
      rcases heq with heq | heq
      · cases heq
        exact ⟨input, .inl rfl⟩
      · cases heq
        exact ⟨second :: input, .inr rfl⟩

theorem readMarked_of_open
    (h : GroupReader.readMarked (input ++ '(' :: more) = some (lexeme, rest)) :
    (GroupReader.readMarked input).isSome = true := by
  by_cases hname : GroupReader.MarksName input
  · obtain ⟨body, rfl | rfl⟩ := hname
    all_goals
      obtain ⟨⟨name, left⟩, hread, -⟩ := Option.map_eq_some_iff.mp h
      obtain ⟨left, hleft⟩ := readName_of_open hread
    · exact Option.isSome_of_eq_some (GroupReader.readMarked_of_name hleft).1
    · exact Option.isSome_of_eq_some (GroupReader.readMarked_of_name hleft).2
  · rw [GroupReader.readMarked_of_flags fun hwhole => hname (marksName_of_append hwhole)] at h
    rw [GroupReader.readMarked_of_flags hname]
    exact readFlags_of_open h

theorem readGroup_of_open
    (h : GroupReader.read verbose (input ++ '(' :: more) = some (lexeme, rest)) :
    (GroupReader.read verbose input).isSome = true := by
  by_cases hmark : ∃ body, next verbose input = some ('?', body)
  · obtain ⟨body, hbody⟩ := hmark
    rw [GroupReader.read] at h ⊢
    simp only [stable_next verbose hbody, hbody] at h ⊢
    exact readMarked_of_open h
  · exact Option.isSome_of_eq_some
      (GroupReader.read_of_ne_mark fun body heq => hmark ⟨body, heq⟩)

theorem mem_dropWhile {test : Char → Bool} {char : Char} {chars : List Char}
    (htest : test char = false) (hmem : char ∈ chars) : char ∈ chars.dropWhile test := by
  rw [← List.takeWhile_append_dropWhile (p := test) (l := chars)] at hmem
  refine (List.mem_append.mp hmem).resolve_left fun htake => ?_
  exact absurd (List.mem_takeWhile_imp htake) (by simp [htest])

theorem mem_trimChars {char : Char} {chars : List Char} (hblank : Text.isBlank char = false)
    (hmem : char ∈ chars) : char ∈ Text.trimChars chars :=
  List.mem_reverse.mpr <|
    mem_dropWhile hblank <| List.mem_reverse.mpr <| mem_dropWhile hblank hmem

theorem not_mem_of_count? {chars : List Char} {count : Nat}
    (h : CountReader.count? chars = some count) : '(' ∉ chars := by
  intro hmem
  unfold CountReader.count? at h
  simp only at h
  split at h
  · next hdigits =>
      simp only [Bool.and_eq_true] at hdigits
      have hdigit := List.all_eq_true.mp hdigits.1.2 '(' (mem_trimChars (by decide) hmem)
      exact absurd hdigit (by decide)
  · cases h

theorem not_mem_of_bounds? {chars : List Char} {bounds : Nat × Option Nat}
    (h : CountReader.bounds? chars = some bounds) : '(' ∉ chars := by
  obtain ⟨low, hlow, h⟩ := Option.bind_eq_some_iff.mp h
  rw [← List.takeWhile_append_dropWhile (p := (· != ',')) (l := chars), List.mem_append, not_or]
  refine ⟨not_mem_of_count? hlow, ?_⟩
  cases hafter : chars.dropWhile (· != ',') with
  | nil => exact List.not_mem_nil
  | cons comma high =>
      rw [hafter] at h
      have hcomma : comma = ',' := by
        have hnot := List.head?_dropWhile_not (· != ',') chars
        rw [hafter] at hnot
        simpa using hnot
      rw [hcomma, List.mem_cons, not_or]
      refine ⟨by decide, ?_⟩
      cases high with
      | nil => exact List.not_mem_nil
      | cons first high =>
          obtain ⟨last, hlast, -⟩ := Option.bind_eq_some_iff.mp h
          exact not_mem_of_count? hlast

theorem CountReader.read_of_open {bounds : Nat × Option Nat}
    (h : CountReader.read verbose (input ++ '(' :: more) = some (bounds, rest))
    (hclosed : ¬ LeavesComment verbose input) :
    ∃ left, CountReader.read verbose input = some (bounds, left) := by
  obtain ⟨chars, _, hchars, hlift⟩ := bind_eq_some_iff.mp h
  have hbounds : CountReader.bounds? chars = some bounds := (lift_eq_some_iff.mp hlift).1
  obtain ⟨left, hleft⟩ := braced_of_open hchars (not_mem_of_bounds? hbounds) hclosed
  exact ⟨left, bind_eq_some_iff.mpr ⟨chars, left, hleft, lift_eq_some_iff.mpr ⟨hbounds, rfl⟩⟩⟩

theorem isSome_readGreed (verbose : Bool) (low : Nat) (high : Option Nat) (input : List Char) :
    (readGreed verbose low high input).isSome = true := by
  unfold readGreed
  split <;> rfl

variable [UnicodeClasses]

theorem readCount_of_open (h : read verbose '\x7b' (input ++ '(' :: more) = some (lexeme, rest))
    (hclosed : ¬ LeavesComment verbose input) :
    (read verbose '\x7b' input).isSome = true := by
  obtain ⟨bounds, after, hcount, -⟩ := bind_eq_some_iff.mp h
  obtain ⟨left, hread⟩ := CountReader.read_of_open hcount hclosed
  obtain ⟨⟨greed, last⟩, hgreed⟩ := Option.isSome_iff_exists.mp
    (isSome_readGreed verbose bounds.1 bounds.2 left)
  exact Option.isSome_of_eq_some (bind_eq_some_iff.mpr ⟨bounds, left, hread, hgreed⟩)

/-- A parenthesis behind a lexeme is not taken with it, unless that is a class or an escape. What
is left to be read before it may be a brace alone. -/
theorem read_of_open {first : Char} (hclass : first ≠ '[')
    (hescape : first = '\\' → input ≠ [])
    (h : read verbose first (input ++ '(' :: more) = some (lexeme, rest))
    (hclosed : ¬ LeavesComment verbose input) :
    (read verbose first input).isSome = true ∨
      ∃ item body, lexeme = .atom item ∧ rest = '\x7b' :: (body ++ '(' :: more) ∧
        next verbose body = none ∧ ¬ LeavesComment verbose body := by
  by_cases hopen : first = '('
  · subst hopen
    exact .inl (readGroup_of_open h)
  by_cases hcount : first = '\x7b'
  · subst hcount
    exact .inl (readCount_of_open h hclosed)
  by_cases hbackslash : first = '\\'
  · subst hbackslash
    obtain ⟨item, after, hitem, hlexeme⟩ := bind_eq_some_iff.mp h
    obtain ⟨rfl, rfl⟩ := pure_eq_some_iff.mp hlexeme
    cases input with
    | nil => exact absurd rfl (hescape rfl)
    | cons letter input =>
        have hinput := not_leavesComment_of_suffix hclosed (List.suffix_cons _ _)
        rcases readEscaped_of_open hitem hinput with hsome | ⟨body, rfl, rfl, hbody⟩
        · obtain ⟨⟨other, left⟩, hother⟩ := Option.isSome_iff_exists.mp hsome
          have hread : readEscape verbose (letter :: input) = some (other, left) := hother
          exact .inl (Option.isSome_of_eq_some (bind_eq_some_iff.mpr ⟨other, left, hread, rfl⟩))
        · exact .inr ⟨item, body, rfl, rfl, hbody,
            not_leavesComment_of_suffix hinput (List.suffix_cons _ _)⟩
  refine .inl ?_
  unfold read
  split
  all_goals first | rfl | exact isSome_readGreed .. | contradiction

theorem readAll_brace {modes : Modes} (h : next modes.verbose input = none)
    (hclosed : ¬ LeavesComment modes.verbose input) :
    readAll modes ('\x7b' :: (input ++ '(' :: more)) = none := by
  have hbrace : next modes.verbose ('\x7b' :: (input ++ '(' :: more)) =
      some ('\x7b', input ++ '(' :: more) := next_of_counts (by decide) _ _
  cases hread : read modes.verbose '\x7b' (input ++ '(' :: more) with
  | none =>
      rw [readAll_eq, hbrace]
      simp only [hread]
  | some result =>
      obtain ⟨bounds, after, hcount, -⟩ := bind_eq_some_iff.mp hread
      obtain ⟨left, hleft⟩ := CountReader.read_of_open hcount hclosed
      obtain ⟨chars, _, hchars, -⟩ := bind_eq_some_iff.mp hleft
      rw [braced, bracedFrom_eq, h] at hchars
      cases hchars

/-- A group that opens behind a text opens where a lexeme starts. -/
theorem readAll_of_open {modes : Modes} {text : List Char} (hclass : ¬ EndsInClass modes text)
    (hescape : ¬ EndsInEscape modes text) (hcomment : ¬ EndsInComment modes text)
    {lexemes : List Lexeme} (h : readAll modes (text ++ '(' :: more) = some lexemes) :
    ∃ before, readAll modes text = some before := by
  fun_induction readAll modes text generalizing lexemes with
  | case1 => exact ⟨[], rfl⟩
  | case2 modes input first left hnext hread =>
      have hunread := unread_of_read_eq_none hnext hread
      rw [EndsInClass, hunread, hnext] at hclass
      rw [EndsInEscape, hunread, hnext] at hescape
      rw [EndsInComment, hunread] at hcomment
      have hleft := not_leavesComment_of_suffix hcomment (leavesSuffix_next _ hnext)
      rw [readAll_eq, stable_next _ hnext] at h
      cases hwhole : read modes.verbose first (left ++ '(' :: more) with
      | none => simp [hwhole] at h
      | some result =>
          obtain ⟨lexeme, rest⟩ := result
          simp only [hwhole] at h
          obtain ⟨others, hothers, -⟩ := Option.map_eq_some_iff.mp h
          rcases read_of_open (by simpa using hclass) (by simpa using hescape) hwhole hleft with
            hsome | ⟨item, body, rfl, rfl, hbody, hclosed⟩
          · rw [hread] at hsome
            cases hsome
          · cases (readAll_brace hbody hclosed).symm.trans hothers
  | case3 modes input first left hnext lexeme rest hread ih =>
      have hunread := unread_of_read hnext hread
      rw [EndsInClass, hunread] at hclass
      rw [EndsInEscape, hunread] at hescape
      rw [EndsInComment, hunread] at hcomment
      have hwhole := read_append hread (delimited_cons (.inl rfl) more) fun hnone hopen =>
        hcomment (EndsInComment.of_leavesComment hnone hopen)
      rw [readAll_of_read (stable_next _ hnext _) hwhole] at h
      obtain ⟨others, hothers, -⟩ := Option.map_eq_some_iff.mp h
      obtain ⟨before, hbefore⟩ := ih hclass hescape hcomment hothers
      exact ⟨lexeme :: before, by rw [hbefore, Option.map_some]⟩

end

/-- An atom may stand behind the text. -/
structure TakesAtom [UnicodeClasses] (text : List Char) : Prop where
  outsideClass : ¬ EndsInClass [] text
  unescaped : ¬ EndsInEscape [] text
  outsideComment : ¬ EndsInComment [] text

instance [UnicodeClasses] : DecidablePred TakesAtom := fun text =>
  decidable_of_iff (¬ EndsInClass [] text ∧ ¬ EndsInEscape [] text ∧ ¬ EndsInComment [] text)
    ⟨fun h => ⟨h.1, h.2.1, h.2.2⟩, fun h => ⟨h.outsideClass, h.unescaped, h.outsideComment⟩⟩

def opening (name : String) : List Char :=
  "(?P<".toList ++ name.toList ++ ['>']

theorem opening_append (name : String) (rest : List Char) :
    opening name ++ rest = '(' :: ("?P<".toList ++ name.toList ++ '>' :: rest) := by
  simp [opening]

/-- Named groups open in a text behind these parts of it, one after the other. -/
structure OpensGroups (text : List Char) (places : List (List Char × String)) : Prop where
  written : ∀ place ∈ places, place.1 ++ opening place.2 <+: text
  ordered : places.Pairwise fun first second => first.1 ++ opening first.2 <+: second.1

/-- The places, if they are those of a text that more stands before. -/
def behind (before : List Char) (places : List (List Char × String)) :
    List (List Char × String) :=
  places.map fun place => (before ++ place.1, place.2)

namespace OpensGroups

variable {text rest : List Char} {places others : List (List Char × String)}

theorem none (text : List Char) : OpensGroups text [] :=
  ⟨List.forall_mem_nil _, .nil⟩

theorem opening (name : String) : OpensGroups (opening name) [([], name)] :=
  ⟨List.forall_mem_singleton.mpr (List.prefix_refl _), List.pairwise_singleton _ _⟩

theorem append (h : OpensGroups text places) (hrest : OpensGroups rest others) :
    OpensGroups (text ++ rest) (places ++ behind text others) := by
  refine ⟨List.forall_mem_append.mpr ⟨fun place hmem => ?_, fun place hmem => ?_⟩,
    List.pairwise_append.mpr ⟨h.ordered, ?_, fun first hfirst second hsecond => ?_⟩⟩
  · exact (h.written place hmem).trans (List.prefix_append text rest)
  · obtain ⟨other, hother, rfl⟩ := List.mem_map.mp hmem
    rw [List.append_assoc, List.prefix_append_right_inj]
    exact hrest.written other hother
  · refine List.pairwise_map.mpr (hrest.ordered.imp fun hlater => ?_)
    rwa [List.append_assoc, List.prefix_append_right_inj]
  · obtain ⟨other, -, rfl⟩ := List.mem_map.mp hsecond
    exact (h.written first hfirst).trans (List.prefix_append text other.1)

end OpensGroups

section

variable [UnicodeClasses] {text : List Char} {lexemes : List Lexeme}

theorem readAll_of_opening (h : readAll [] text = some lexemes) {before : List Char}
    {name : String} (hwritten : before ++ opening name <+: text) (hatom : TakesAtom before)
    (hname : IsGroupName name) :
    ∃ first others, readAll [] before = some first ∧
      lexemes = first ++ .openGroup (.named name) :: others := by
  obtain ⟨rest, rfl⟩ := hwritten
  rw [List.append_assoc, opening_append] at h
  obtain ⟨first, hfirst⟩ := readAll_of_open hatom.outsideClass hatom.unescaped hatom.outsideComment h
  have hsource : '(' :: ("?P<".toList ++ name.toList ++ '>' :: rest) =
      "(?P<".toList ++ name.toList ++ '>' :: rest := by simp
  rw [readAll_append hfirst hatom.outsideComment (delimited_cons (.inl rfl) _), hsource,
    readAll_openNamed _ hname, Option.map_map] at h
  obtain ⟨others, -, rfl⟩ := Option.map_eq_some_iff.mp h
  exact ⟨first, others, hfirst, rfl⟩

/-- The names of such groups are among those that the lexemes bring, in order; `taken` are lexemes
before all of the groups. -/
theorem sublist_names (h : readAll [] text = some lexemes) {taken others : List Lexeme}
    (htaken : lexemes = taken ++ others) {places : List (List Char × String)}
    (hplaces : OpensGroups text places)
    (hatoms : ∀ place ∈ places, TakesAtom place.1 ∧ IsGroupName place.2)
    (hbefore : ∀ place ∈ places, ∀ first, readAll [] place.1 = some first → taken <+: first) :
    (places.map Prod.snd).Sublist (others.flatMap names) := by
  induction places generalizing taken others with
  | nil => exact List.nil_sublist _
  | cons place places ih =>
      obtain ⟨⟨hatom, hname⟩, hatoms⟩ := List.forall_mem_cons.mp hatoms
      obtain ⟨hwritten, hlater⟩ := List.forall_mem_cons.mp hplaces.written
      obtain ⟨hfollows, hordered⟩ := List.pairwise_cons.mp hplaces.ordered
      obtain ⟨first, left, hfirst, hlexemes⟩ := readAll_of_opening h hwritten hatom hname
      obtain ⟨between, rfl⟩ := hbefore place List.mem_cons_self first hfirst
      obtain rfl : others = between ++ .openGroup (.named place.2) :: left := by
        rwa [htaken, List.append_assoc, List.append_cancel_left_eq] at hlexemes
      have hrest : (places.map Prod.snd).Sublist (left.flatMap names) := by
        have hsplit : lexemes = (taken ++ between ++ [.openGroup (.named place.2)]) ++ left := by
          rw [hlexemes]
          simp
        refine ih hsplit ⟨hlater, hordered⟩ hatoms fun other hmem found hfound => ?_
        obtain ⟨_, after, hagain, rfl⟩ :=
          readAll_of_opening hfound (hfollows other hmem) hatom hname
        cases hfirst.symm.trans hagain
        exact ⟨after, by simp⟩
      rw [List.map_cons, List.flatMap_append, List.flatMap_cons]
      exact (hrest.cons_cons place.2).trans (List.sublist_append_right _ _)

end

end Lexeme

end DocMarkup
