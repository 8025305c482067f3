import DocMarkup.Proofs.Pattern.Stability

/-!
Lexemes of texts that are put together.

The lexemes of a pattern that stands in a group are those that it has on its own: what follows
it cannot go on with its last lexeme, unless the pattern ends in a comment.
-/

namespace DocMarkup

def GroupKind.names : GroupKind → List String
  | named name => [name]
  | _ => []

def Expression.isAtom : Expression → Bool
  | literal _ | byte _ | dot | lineStart | lineEnd | textStart | textEnd | word _ | set _ => true
  | _ => false

namespace Lexeme

namespace Modes

/-- Nothing said is verbose mode being off. -/
def Agree (modes others : Modes) : Prop :=
  ∀ depth, modes.getD depth false = others.getD depth false

variable {modes others : Modes}

theorem verbose_eq_getD (modes : Modes) : modes.verbose = modes.getD 0 false := by
  cases modes <;> rfl

theorem getD_tail (modes : Modes) (depth : Nat) :
    modes.tail.getD depth false = modes.getD (depth + 1) false := by
  cases modes <;> rfl

theorem Agree.verbose (h : Agree modes others) : modes.verbose = others.verbose := by
  rw [verbose_eq_getD, verbose_eq_getD]
  exact h 0

theorem Agree.tail (h : Agree modes others) : Agree modes.tail others.tail := by
  intro depth
  rw [getD_tail, getD_tail]
  exact h (depth + 1)

theorem Agree.cons (h : Agree modes others) (mode : Bool) :
    Agree (mode :: modes) (mode :: others) := by
  intro depth
  cases depth with
  | zero => rfl
  | succ depth => exact h depth

theorem Agree.after (h : Agree modes others) (lexeme : Lexeme) :
    Agree (modes.after lexeme) (others.after lexeme) := by
  have hset (changes : FlagChanges) : modes.set changes = others.set changes := by
    rw [set, set, h.verbose]
  cases lexeme with
  | flags changes =>
      simp only [Modes.after, hset]
      exact h.tail.cons _
  | openGroup kind =>
      cases kind with
      | flagged changes =>
          simp only [Modes.after, hset]
          exact h.cons _
      | _ =>
          simp only [Modes.after, h.verbose]
          exact h.cons _
  | closeGroup => exact h.tail
  | _ => exact h

/-- Verbose mode is on in no group. -/
def Off (modes : Modes) : Prop :=
  ∀ mode ∈ modes, mode = false

theorem Off.agree (h : Off modes) : Agree modes [] := by
  intro depth
  rw [List.getD_eq_getElem?_getD]
  cases hmode : modes[depth]? with
  | none => rfl
  | some mode => exact h mode (List.mem_of_getElem? hmode)

theorem off_nil : Off [] :=
  List.forall_mem_nil _

theorem Off.tail (h : Off modes) : Off modes.tail :=
  fun mode hmem => h mode (List.mem_of_mem_tail hmem)

theorem Off.verbose (h : Off modes) : modes.verbose = false :=
  h.agree.verbose

theorem Off.cons (h : Off modes) {mode : Bool} (hmode : mode = false) : Off (mode :: modes) :=
  List.forall_mem_cons.mpr ⟨hmode, h⟩

end Modes

def setsVerbose : Lexeme → Bool
  | flags changes | openGroup (.flagged changes) => changes.lookup .verbose == some true
  | _ => false

namespace Modes

variable {modes : Modes}

theorem Off.set (h : Off modes) {changes : FlagChanges}
    (hchanges : (changes.lookup .verbose == some true) = false) : modes.set changes = false := by
  rw [Modes.set, h.verbose]
  cases hlookup : changes.lookup .verbose with
  | none => rfl
  | some mode =>
      cases mode with
      | false => rfl
      | true => simp [hlookup] at hchanges

theorem Off.after (h : Off modes) {lexeme : Lexeme} (hlexeme : lexeme.setsVerbose = false) :
    Off (modes.after lexeme) := by
  cases lexeme with
  | flags changes => exact h.tail.cons (h.set hlexeme)
  | openGroup kind =>
      cases kind with
      | flagged changes => exact h.cons (h.set hlexeme)
      | _ => exact h.cons h.verbose
  | closeGroup => exact h.tail
  | _ => exact h

theorem Off.foldl (h : Off modes) {lexemes : List Lexeme}
    (hlexemes : ∀ lexeme ∈ lexemes, lexeme.setsVerbose = false) :
    Off (lexemes.foldl Modes.after modes) := by
  induction lexemes generalizing modes with
  | nil => exact h
  | cons lexeme lexemes ih =>
      obtain ⟨hlexeme, hlexemes⟩ := List.forall_mem_cons.mp hlexemes
      exact ih (h.after hlexeme) hlexemes

end Modes

section

variable [UnicodeClasses]

/-- What is left of a text when no further lexeme can be read, with the modes there. -/
def unread (modes : Modes) (input : List Char) : Modes × List Char :=
  match _hnext : next modes.verbose input with
  | none => (modes, input)
  | some (first, left) =>
      match _hread : read modes.verbose first left with
      | none => (modes, input)
      | some (lexeme, rest) => unread (modes.after lexeme) rest
termination_by input.length
decreasing_by exact length_of_read _hnext _hread

end

/-- A hash with no end of the line behind it. -/
def hasOpenHash : List Char → Bool
  | [] => false
  | char :: rest => hasOpenHash rest || char == '#' && rest.all (· != '\n')

def LeavesComment (verbose : Bool) (input : List Char) : Prop :=
  verbose = true ∧ hasOpenHash input = true

instance (verbose : Bool) (input : List Char) : Decidable (LeavesComment verbose input) :=
  inferInstanceAs (Decidable (_ ∧ _))

theorem hasOpenHash_of_suffix {input rest : List Char} (hsuffix : rest <:+ input)
    (h : hasOpenHash rest = true) : hasOpenHash input = true := by
  obtain ⟨before, rfl⟩ := hsuffix
  induction before with
  | nil => exact h
  | cons first before ih => rw [List.cons_append, hasOpenHash, ih, Bool.true_or]

theorem not_leavesComment_of_suffix {verbose : Bool} {input rest : List Char}
    (h : ¬ LeavesComment verbose input) (hsuffix : rest <:+ input) : ¬ LeavesComment verbose rest :=
  fun hcomment => h ⟨hcomment.1, hasOpenHash_of_suffix hsuffix hcomment.2⟩

theorem nextFrom_append_of_eq_none {inComment : Bool} {input : List Char}
    (h : nextFrom true inComment input = none)
    (hclosed : hasOpenHash (if inComment then '#' :: input else input) = false)
    (more : List Char) : nextFrom true inComment (input ++ more) = nextFrom true false more := by
  induction input generalizing inComment with
  | nil =>
      cases inComment with
      | true => cases hclosed
      | false => rfl
  | cons first input ih =>
      rw [List.cons_append]
      cases inComment with
      | true =>
          refine ih h ?_
          rw [if_pos rfl, hasOpenHash, Bool.or_eq_false_iff, hasOpenHash,
            Bool.or_eq_false_iff] at hclosed
          obtain ⟨⟨hinput, -⟩, hline⟩ := hclosed
          by_cases hbreak : first = '\n'
          · simpa [hbreak] using hinput
          · simpa [hbreak, hasOpenHash, hinput] using hline
      | false =>
          rw [nextFrom] at h ⊢
          split at h
          · next hblank =>
              rw [if_pos hblank]
              rw [if_neg (by decide), hasOpenHash, Bool.or_eq_false_iff] at hclosed
              exact ih h hclosed.1
          · next hblank =>
              split at h
              · next hhash =>
                  rw [if_neg hblank, if_pos hhash]
                  obtain rfl : first = '#' := by simpa using hhash
                  exact ih h hclosed
              · cases h

theorem next_append_of_eq_none {verbose : Bool} {input : List Char}
    (h : next verbose input = none) (hclosed : ¬ LeavesComment verbose input) (more : List Char) :
    next verbose (input ++ more) = next verbose more := by
  cases verbose with
  | true => exact nextFrom_append_of_eq_none h (by simpa [LeavesComment] using hclosed) more
  | false =>
      cases input with
      | nil => rfl
      | cons first input => cases h

/-- Nothing follows, or what ends an item. -/
def Delimited (more : List Char) : Prop :=
  ∀ char ∈ more.head?, char = '(' ∨ char = ')' ∨ char = '|'

theorem delimited_nil : Delimited [] :=
  fun _ h => nomatch h

theorem delimited_cons {char : Char} (h : char = '(' ∨ char = ')' ∨ char = '|')
    (rest : List Char) : Delimited (char :: rest) := by
  intro first hfirst
  cases hfirst
  exact h

theorem next_of_counts {char : Char} (h : char ≠ '#' ∧ Text.isBlank char = false)
    (verbose : Bool) (rest : List Char) : next verbose (char :: rest) = some (char, rest) := by
  rw [next, nextFrom, h.2, beq_eq_false_iff_ne.mpr h.1, Bool.and_false]
  rfl

theorem next_mark (verbose : Bool) (rest : List Char) :
    next verbose ('?' :: rest) = some ('?', rest) :=
  next_of_counts (by decide) verbose rest

theorem next_delimiter {char : Char} (h : char = '(' ∨ char = ')' ∨ char = '|')
    (verbose : Bool) (rest : List Char) : next verbose (char :: rest) = some (char, rest) := by
  refine next_of_counts ?_ verbose rest
  rcases h with rfl | rfl | rfl <;> decide

theorem next_of_delimited {more : List Char} (h : Delimited more) (verbose : Bool) :
    next verbose more = none ∨
      ∃ char rest, more = char :: rest ∧ next verbose more = some (char, rest) := by
  cases more with
  | nil => exact .inl (by cases verbose <;> rfl)
  | cons char rest => exact .inr ⟨char, rest, rfl, next_delimiter (h char rfl) verbose rest⟩

theorem Delimited.head?_ne {more : List Char} (h : Delimited more) {char : Char}
    (hchar : char ≠ '(' ∧ char ≠ ')' ∧ char ≠ '|') : more.head? ≠ some char := by
  intro heq
  rcases h char heq with hparen | hparen | hparen
  · exact hchar.1 hparen
  · exact hchar.2.1 hparen
  · exact hchar.2.2 hparen

theorem next_ne_mark {more : List Char} (h : Delimited more) {verbose : Bool}
    {input : List Char} (hclosed : next verbose input = none → ¬ LeavesComment verbose input)
    (hmark : ∀ rest, next verbose input ≠ some ('?', rest)) (rest : List Char) :
    next verbose (input ++ more) ≠ some ('?', rest) := by
  intro heq
  cases hnext : next verbose input with
  | some result =>
      obtain ⟨char, left⟩ := result
      cases (stable_next verbose hnext more).symm.trans heq
      exact hmark left hnext
  | none =>
      rw [next_append_of_eq_none hnext (hclosed hnext)] at heq
      rcases next_of_delimited h verbose with hnone | ⟨char, left, rfl, hsome⟩
      · cases hnone.symm.trans heq
      · cases hsome.symm.trans heq
        exact h.head?_ne (by decide) rfl

theorem readGreed_of_ne_mark {verbose : Bool} {input : List Char}
    (h : ∀ rest, next verbose input ≠ some ('?', rest)) (low : Nat) (high : Option Nat) :
    readGreed verbose low high input = some (.repetition low high true, input) := by
  unfold readGreed
  split
  · next rest hmark => exact absurd hmark (h rest)
  · rfl

theorem exists_of_readGreed {verbose : Bool} {low : Nat} {high : Option Nat}
    {input rest : List Char} {lexeme : Lexeme}
    (h : readGreed verbose low high input = some (lexeme, rest)) :
    ∃ greedy, lexeme = .repetition low high greedy := by
  unfold readGreed at h
  split at h <;> exact ⟨_, (Prod.ext_iff.mp (Option.some.inj h)).1.symm⟩

theorem readGreed_append {verbose : Bool} {low : Nat} {high : Option Nat}
    {input rest more : List Char} {lexeme : Lexeme}
    (h : readGreed verbose low high input = some (lexeme, rest)) (hmore : Delimited more)
    (hclosed : next verbose rest = none → ¬ LeavesComment verbose rest) :
    readGreed verbose low high (input ++ more) = some (lexeme, rest ++ more) := by
  unfold readGreed at h
  split at h
  · next left hmark =>
      cases h
      rw [readGreed]
      simp only [stable_next verbose hmark more]
  · next hmark =>
      cases h
      exact readGreed_of_ne_mark (next_ne_mark hmore hclosed hmark) low high

theorem GroupReader.read_of_ne_mark {verbose : Bool} {input : List Char}
    (h : ∀ rest, next verbose input ≠ some ('?', rest)) :
    GroupReader.read verbose input = some (.openGroup .unnamed, input) := by
  unfold GroupReader.read
  split
  · next rest hmark => exact absurd hmark (h rest)
  · rfl

theorem GroupReader.read_append {verbose : Bool} {input rest more : List Char} {lexeme : Lexeme}
    (h : GroupReader.read verbose input = some (lexeme, rest)) (hmore : Delimited more)
    (hclosed : lexeme = .openGroup .unnamed → next verbose rest = none →
      ¬ LeavesComment verbose rest) :
    GroupReader.read verbose (input ++ more) = some (lexeme, rest ++ more) := by
  unfold GroupReader.read at h
  split at h
  · next left hmark =>
      rw [GroupReader.read]
      simp only [stable_next verbose hmark more]
      exact stable_readMarked h more
  · next hmark =>
      cases h
      exact read_of_ne_mark (next_ne_mark hmore (hclosed rfl) hmark)

section

variable [UnicodeClasses]

theorem read_append {modes : Modes} {first : Char} {input rest more : List Char}
    {lexeme : Lexeme} (h : read modes.verbose first input = some (lexeme, rest))
    (hmore : Delimited more)
    (hclosed : next (modes.after lexeme).verbose rest = none →
      ¬ LeavesComment (modes.after lexeme).verbose rest) :
    read modes.verbose first (input ++ more) = some (lexeme, rest ++ more) := by
  have hplain : next false rest = none → ¬ LeavesComment false rest :=
    fun _ hcomment => nomatch hcomment.1
  unfold read at h ⊢
  split at h
  · refine GroupReader.read_append h hmore fun hlexeme => ?_
    rwa [hlexeme] at hclosed
  · exact Stable.pure _ h more
  · exact Stable.pure _ h more
  · exact readGreed_append h hmore hplain
  · exact readGreed_append h hmore hplain
  · exact readGreed_append h hmore hplain
  · obtain ⟨bounds, left, hbounds, hgreed⟩ := bind_eq_some_iff.mp h
    obtain ⟨greedy, rfl⟩ := exists_of_readGreed hgreed
    exact bind_eq_some_iff.mpr ⟨bounds, left ++ more,
      CountReader.stable_read _ hbounds more, readGreed_append hgreed hmore hclosed⟩
  · exact ((ClassReader.stable_read _).bind fun _ => .pure _) h more
  · obtain ⟨item, left, hitem, hrest⟩ := bind_eq_some_iff.mp h
    obtain ⟨rfl, rfl⟩ := pure_eq_some_iff.mp hrest
    exact bind_eq_some_iff.mpr ⟨item, left ++ more,
      readEscape_append hitem fun _ => hmore.head?_ne (by decide), rfl⟩
  all_goals exact Stable.pure _ h more

section

variable {modes : Modes} {first : Char} {input left rest more : List Char} {lexeme : Lexeme}

theorem readAll_eq (modes : Modes) (input : List Char) :
    readAll modes input =
      match next modes.verbose input with
      | none => some []
      | some (first, left) =>
          match read modes.verbose first left with
          | none => none
          | some (lexeme, rest) => (readAll (modes.after lexeme) rest).map (lexeme :: ·) := by
  rw [readAll]
  split
  · next hnext => rw [hnext]
  · next hnext =>
      simp only [hnext]
      split
      · next hread => rw [hread]
      · next hread => rw [hread]

theorem unread_eq (modes : Modes) (input : List Char) :
    unread modes input =
      match next modes.verbose input with
      | none => (modes, input)
      | some (first, left) =>
          match read modes.verbose first left with
          | none => (modes, input)
          | some (lexeme, rest) => unread (modes.after lexeme) rest := by
  rw [unread]
  split
  · next hnext => rw [hnext]
  · next hnext =>
      simp only [hnext]
      split
      · next hread => rw [hread]
      · next hread => rw [hread]

theorem readAll_of_next_eq_none (h : next modes.verbose input = none) :
    readAll modes input = some [] := by
  rw [readAll_eq, h]

theorem readAll_of_read (hnext : next modes.verbose input = some (first, left))
    (hread : read modes.verbose first left = some (lexeme, rest)) :
    readAll modes input = (readAll (modes.after lexeme) rest).map (lexeme :: ·) := by
  rw [readAll_eq, hnext]
  simp only [hread]

theorem unread_of_next_eq_none (h : next modes.verbose input = none) :
    unread modes input = (modes, input) := by
  rw [unread_eq, h]

theorem unread_of_read (hnext : next modes.verbose input = some (first, left))
    (hread : read modes.verbose first left = some (lexeme, rest)) :
    unread modes input = unread (modes.after lexeme) rest := by
  rw [unread_eq, hnext]
  simp only [hread]

theorem unread_of_read_eq_none (hnext : next modes.verbose input = some (first, left))
    (hread : read modes.verbose first left = none) : unread modes input = (modes, input) := by
  rw [unread_eq, hnext]
  simp only [hread]

theorem readAll_congr_next {other : List Char}
    (h : next modes.verbose input = next modes.verbose other) :
    readAll modes input = readAll modes other := by
  rw [readAll_eq modes input, readAll_eq modes other, h]

theorem readAll_congr_modes {others : Modes} (h : modes.Agree others) (input : List Char) :
    readAll modes input = readAll others input := by
  fun_induction readAll modes input generalizing others with
  | case1 modes input hnext =>
      rw [h.verbose] at hnext
      rw [readAll_of_next_eq_none hnext]
  | case2 modes input first left hnext hread =>
      rw [h.verbose] at hnext hread
      rw [readAll_eq, hnext]
      simp only [hread]
  | case3 modes input first left hnext lexeme rest hread ih =>
      rw [h.verbose] at hnext hread
      rw [readAll_of_read hnext hread, ih (h.after lexeme)]

/-- The text ends inside a comment. -/
def EndsInComment (modes : Modes) (text : List Char) : Prop :=
  LeavesComment (unread modes text).1.verbose (unread modes text).2

instance (modes : Modes) (text : List Char) : Decidable (EndsInComment modes text) :=
  inferInstanceAs (Decidable (LeavesComment _ _))

theorem unread_congr_modes {others : Modes} (h : modes.Agree others) (input : List Char) :
    (unread modes input).1.Agree (unread others input).1 ∧
      (unread modes input).2 = (unread others input).2 := by
  fun_induction unread modes input generalizing others with
  | case1 modes input hnext =>
      rw [h.verbose] at hnext
      rw [unread_of_next_eq_none hnext]
      exact ⟨h, rfl⟩
  | case2 modes input first left hnext hread =>
      rw [h.verbose] at hnext hread
      rw [unread_of_read_eq_none hnext hread]
      exact ⟨h, rfl⟩
  | case3 modes input first left hnext lexeme rest hread ih =>
      rw [h.verbose] at hnext hread
      rw [unread_of_read hnext hread]
      exact ih (h.after lexeme)

theorem endsInComment_congr {others : Modes} (h : modes.Agree others) (text : List Char) :
    EndsInComment modes text ↔ EndsInComment others text := by
  obtain ⟨hmodes, hleft⟩ := unread_congr_modes h text
  rw [EndsInComment, EndsInComment, hmodes.verbose, hleft]

theorem modes_unread {lexemes : List Lexeme} (h : readAll modes input = some lexemes) :
    (unread modes input).1 = lexemes.foldl Modes.after modes := by
  fun_induction readAll modes input generalizing lexemes with
  | case1 modes input hnext =>
      cases h
      rw [unread_of_next_eq_none hnext]
      rfl
  | case2 => cases h
  | case3 modes input first left hnext lexeme rest hread ih =>
      obtain ⟨others, hothers, rfl⟩ := Option.map_eq_some_iff.mp h
      rw [unread_of_read hnext hread, ih hothers]
      rfl

theorem EndsInComment.of_leavesComment (hnext : next modes.verbose input = none)
    (h : LeavesComment modes.verbose input) : EndsInComment modes input := by
  rw [EndsInComment, unread_of_next_eq_none hnext]
  exact h

/-- The lexemes of a text are those that it has on its own, whatever follows it behind an end
of an item. -/
theorem readAll_append {lexemes : List Lexeme} (h : readAll modes input = some lexemes)
    (hclosed : ¬ EndsInComment modes input) (hmore : Delimited more) :
    readAll modes (input ++ more) =
      (readAll (lexemes.foldl Modes.after modes) more).map (lexemes ++ ·) := by
  fun_induction readAll modes input generalizing lexemes with
  | case1 modes input hnext =>
      cases h
      have hcomment : ¬ LeavesComment modes.verbose input :=
        fun hcomment => hclosed (.of_leavesComment hnext hcomment)
      rw [readAll_congr_next (next_append_of_eq_none hnext hcomment more)]
      simp
  | case2 => cases h
  | case3 modes input first left hnext lexeme rest hread ih =>
      obtain ⟨others, hothers, rfl⟩ := Option.map_eq_some_iff.mp h
      have hrest : ¬ EndsInComment (modes.after lexeme) rest := by
        rwa [EndsInComment, ← unread_of_read hnext hread]
      have hread' := read_append hread hmore fun hnone hcomment =>
        hrest (.of_leavesComment hnone hcomment)
      rw [readAll_of_read (stable_next _ hnext more) hread', ih hothers hrest, Option.map_map]
      rfl

/-- The text is read as these lexemes, and never sets verbose mode. -/
structure ReadsPlainly (text : List Char) (lexemes : List Lexeme) : Prop where
  reads : readAll [] text = some lexemes
  plain : ∀ lexeme ∈ lexemes, lexeme.setsVerbose = false

theorem readsPlainly_nil : ReadsPlainly [] [] :=
  ⟨readAll_of_next_eq_none rfl, List.forall_mem_nil _⟩

theorem ReadsPlainly.not_endsInComment {lexemes : List Lexeme} (h : ReadsPlainly input lexemes) :
    ¬ EndsInComment [] input := by
  intro hcomment
  rw [EndsInComment, modes_unread h.reads, LeavesComment,
    (Modes.off_nil.foldl h.plain).verbose] at hcomment
  cases hcomment.1

theorem ReadsPlainly.append {lexemes others : List Lexeme} (h : ReadsPlainly input lexemes)
    (hmore : ReadsPlainly more others) (hdelimited : Delimited more) :
    ReadsPlainly (input ++ more) (lexemes ++ others) := by
  refine ⟨?_, List.forall_mem_append.mpr ⟨h.plain, hmore.plain⟩⟩
  rw [readAll_append h.reads h.not_endsInComment hdelimited,
    readAll_congr_modes (Modes.off_nil.foldl h.plain).agree, hmore.reads, Option.map_some]

theorem readAll_close (rest : List Char) :
    readAll modes (')' :: rest) = (readAll modes.tail rest).map (closeGroup :: ·) :=
  readAll_of_read (next_delimiter (by decide) _ rest) rfl

theorem readAll_bar (rest : List Char) :
    readAll modes ('|' :: rest) = (readAll modes rest).map (bar :: ·) :=
  readAll_of_read (next_delimiter (by decide) _ rest) rfl

end

end

structure IsGroupName (name : String) : Prop where
  isName : GroupReader.isName name.toList = true
  angle : '>' ∉ name.toList

theorem readName_eq_some_iff {input rest : List Char} {name : String} :
    GroupReader.readName input = some (name, rest) ↔
      IsGroupName name ∧ input = name.toList ++ '>' :: rest := by
  constructor
  · intro h
    unfold GroupReader.readName at h
    split at h
    · next closing after hdrop =>
        simp only at h
        split at h
        · next hname =>
            cases h
            have hclosing : closing = '>' := by
              have hnot := List.head?_dropWhile_not (· != '>') input
              rw [hdrop] at hnot
              simpa using hnot
            subst hclosing
            refine ⟨⟨by rwa [String.toList_ofList], ?_⟩, ?_⟩
            · rw [String.toList_ofList]
              intro hmem
              simpa using List.mem_takeWhile_imp hmem
            · rw [String.toList_ofList, ← hdrop, List.takeWhile_append_dropWhile]
        · cases h
    · cases h
  · intro ⟨hname, hinput⟩
    have hchars : ∀ char ∈ name.toList, (char != '>') = true :=
      fun char hmem => bne_iff_ne.mpr fun heq => hname.angle (heq ▸ hmem)
    have htake : input.takeWhile (· != '>') = name.toList := by
      rw [hinput, List.takeWhile_append_of_pos hchars]
      simp
    have hdrop : input.dropWhile (· != '>') = '>' :: rest := by
      rw [hinput, List.dropWhile_append_of_pos hchars]
      simp
    rw [GroupReader.readName]
    simp only [hdrop, htake, if_pos hname.isName, String.ofList_toList]

def names : Lexeme → List String
  | atom item => item.names
  | openGroup kind => kind.names
  | _ => []

theorem names_of_isAtom {item : Expression} (h : item.isAtom = true) : item.names = [] := by
  cases item with
  | empty | flags | group | repeated | seq | alt => cases h
  | _ => rfl

/-- An atom that one lexeme writes, or a group whose name can be one. -/
def IsWritten : Lexeme → Prop
  | atom item => item.isAtom = true
  | openGroup (.named name) => IsGroupName name
  | _ => True

theorem IsWritten.isGroupName {lexeme : Lexeme} (h : lexeme.IsWritten) {name : String}
    (hname : name ∈ lexeme.names) : IsGroupName name := by
  cases lexeme with
  | atom item =>
      rw [names, names_of_isAtom h] at hname
      cases hname
  | openGroup kind =>
      cases kind with
      | named other => exact List.mem_singleton.mp hname ▸ h
      | _ => cases hname
  | _ => cases hname

section

variable {verbose : Bool} {first : Char} {input rest : List Char}

theorem isWritten_of_readMarked {lexeme : Lexeme}
    (h : GroupReader.readMarked input = some (lexeme, rest)) : lexeme.IsWritten := by
  by_cases hname : GroupReader.MarksName input
  · obtain ⟨body, rfl | rfl⟩ := hname
    all_goals
      obtain ⟨⟨name, left⟩, hread, heq⟩ := Option.map_eq_some_iff.mp h
      cases heq
      exact (readName_eq_some_iff.mp hread).1
  · rw [GroupReader.readMarked_of_flags hname] at h
    unfold GroupReader.readFlags at h
    simp only at h
    split at h
    · obtain ⟨changes, -, heq⟩ := Option.map_eq_some_iff.mp h
      cases heq
      trivial
    · split at h
      · cases h
      · obtain ⟨changes, -, heq⟩ := Option.map_eq_some_iff.mp h
        cases heq
        trivial
    · cases h

theorem isWritten_of_readGroup {lexeme : Lexeme}
    (h : GroupReader.read verbose input = some (lexeme, rest)) : lexeme.IsWritten := by
  unfold GroupReader.read at h
  split at h
  · exact isWritten_of_readMarked h
  · cases h
    trivial

theorem isWritten_of_readGreed {low : Nat} {high : Option Nat} {lexeme : Lexeme}
    (h : readGreed verbose low high input = some (lexeme, rest)) : lexeme.IsWritten := by
  obtain ⟨greedy, rfl⟩ := exists_of_readGreed h
  trivial

theorem isAtom_of_readCodePoint {width : Nat} {item : Expression}
    (h : readCodePoint verbose width input = some (item, rest)) : item.isAtom = true := by
  obtain ⟨first, left, -, h⟩ := bind_eq_some_iff.mp h
  split at h
  · obtain ⟨_, left, -, h⟩ := bind_eq_some_iff.mp h
    obtain ⟨digits, left, -, h⟩ := bind_eq_some_iff.mp h
    obtain ⟨char, left, -, h⟩ := bind_eq_some_iff.mp h
    obtain ⟨rfl, -⟩ := pure_eq_some_iff.mp h
    rfl
  · obtain ⟨digits, left, -, h⟩ := bind_eq_some_iff.mp h
    obtain ⟨char, left, -, h⟩ := bind_eq_some_iff.mp h
    obtain ⟨rfl, -⟩ := pure_eq_some_iff.mp h
    split <;> rfl

theorem isAtom_of_readEdge {item : Expression} (h : readEdge verbose input = some (item, rest)) :
    item.isAtom = true := by
  unfold readEdge at h
  split at h
  · split at h
    · cases h
    · split at h
      · obtain ⟨name, -, h⟩ := Option.bind_eq_some_iff.mp h
        obtain ⟨edge, -, heq⟩ := Option.bind_eq_some_iff.mp h
        cases heq
        rfl
      · cases h
        rfl
  · cases h
    rfl

theorem isAtom_of_ofLetter? {letter : Char} {item : Expression}
    (h : ofLetter? letter = some item) : item.isAtom = true := by
  unfold ofLetter? at h
  split at h <;> cases h <;> rfl

variable [UnicodeClasses]

theorem isAtom_of_readClass {negated : Bool} {item : Expression}
    (h : readClass verbose negated input = some (item, rest)) : item.isAtom = true := by
  obtain ⟨first, left, -, h⟩ := bind_eq_some_iff.mp h
  split at h
  · obtain ⟨name, left, -, h⟩ := bind_eq_some_iff.mp h
    obtain ⟨set, left, -, h⟩ := bind_eq_some_iff.mp h
    obtain ⟨rfl, -⟩ := pure_eq_some_iff.mp h
    rfl
  · split at h
    · cases h
    · obtain ⟨set, left, -, h⟩ := bind_eq_some_iff.mp h
      obtain ⟨rfl, -⟩ := pure_eq_some_iff.mp h
      rfl

theorem isAtom_of_readEscape {item : Expression}
    (h : readEscape verbose input = some (item, rest)) : item.isAtom = true := by
  obtain ⟨letter, left, -, h⟩ := bind_eq_some_iff.mp h
  unfold readEscaped at h
  split at h
  · exact isAtom_of_readCodePoint h
  · exact isAtom_of_readCodePoint h
  · exact isAtom_of_readCodePoint h
  · exact isAtom_of_readClass h
  · exact isAtom_of_readClass h
  · exact isAtom_of_readEdge h
  · split at h
    · obtain ⟨rfl, -⟩ := pure_eq_some_iff.mp h
      rfl
    · exact isAtom_of_ofLetter? (lift_eq_some_iff.mp h).1

theorem isWritten_of_read {lexeme : Lexeme}
    (h : read verbose first input = some (lexeme, rest)) : lexeme.IsWritten := by
  have hatom {item : Expression} (hitem : item.isAtom = true)
      (h : (Pure.pure (atom item) : Read Lexeme) input = some (lexeme, rest)) :
      lexeme.IsWritten := by
    obtain ⟨rfl, -⟩ := pure_eq_some_iff.mp h
    exact hitem
  unfold read at h
  split at h
  · exact isWritten_of_readGroup h
  · obtain ⟨rfl, -⟩ := pure_eq_some_iff.mp h
    trivial
  · obtain ⟨rfl, -⟩ := pure_eq_some_iff.mp h
    trivial
  · exact isWritten_of_readGreed h
  · exact isWritten_of_readGreed h
  · exact isWritten_of_readGreed h
  · obtain ⟨bounds, left, -, h⟩ := bind_eq_some_iff.mp h
    exact isWritten_of_readGreed h
  · obtain ⟨item, left, -, h⟩ := bind_eq_some_iff.mp h
    obtain ⟨rfl, -⟩ := pure_eq_some_iff.mp h
    rfl
  · obtain ⟨item, left, hitem, h⟩ := bind_eq_some_iff.mp h
    obtain ⟨rfl, -⟩ := pure_eq_some_iff.mp h
    exact isAtom_of_readEscape hitem
  · exact hatom rfl h
  · exact hatom rfl h
  · exact hatom rfl h
  · exact hatom rfl h

theorem isWritten_of_mem_readAll {modes : Modes} {lexemes : List Lexeme}
    (h : readAll modes input = some lexemes) {lexeme : Lexeme} (hmem : lexeme ∈ lexemes) :
    lexeme.IsWritten := by
  fun_induction readAll modes input generalizing lexemes with
  | case1 =>
      cases h
      cases hmem
  | case2 => cases h
  | case3 modes input first left hnext next rest hread ih =>
      obtain ⟨others, hothers, rfl⟩ := Option.map_eq_some_iff.mp h
      cases hmem with
      | tail _ hmem => exact ih hothers hmem
      | head => exact isWritten_of_read hread

theorem readAll_openNamed (modes : Modes) {name : String} (h : IsGroupName name)
    (rest : List Char) :
    readAll modes ("(?P<".toList ++ name.toList ++ '>' :: rest) =
      (readAll (modes.verbose :: modes) rest).map (openGroup (.named name) :: ·) := by
  have hname : GroupReader.readName (name.toList ++ '>' :: rest) = some (name, rest) :=
    readName_eq_some_iff.mpr ⟨h, rfl⟩
  have htext : "(?P<".toList ++ name.toList ++ '>' :: rest =
      '(' :: '?' :: 'P' :: '<' :: (name.toList ++ '>' :: rest) := by
    simp
  have hread : read modes.verbose '(' ('?' :: 'P' :: '<' :: (name.toList ++ '>' :: rest)) =
      some (openGroup (.named name), rest) := by
    rw [read, GroupReader.read, next_mark]
    exact (GroupReader.readMarked_of_name hname).1
  rw [htext]
  exact readAll_of_read (next_delimiter (by decide) _ _) hread

theorem readAll_openPlain (modes : Modes) (rest : List Char) :
    readAll modes ("(?:".toList ++ rest) =
      (readAll (modes.verbose :: modes) rest).map (openGroup (.flagged []) :: ·) := by
  have htext : "(?:".toList ++ rest = '(' :: '?' :: ':' :: rest := by simp
  have hread : read modes.verbose '(' ('?' :: ':' :: rest) =
      some (openGroup (.flagged []), rest) := by
    rw [read, GroupReader.read, next_mark]
    rfl
  rw [htext]
  exact readAll_of_read (next_delimiter (by decide) _ _) hread

end

end Lexeme

end DocMarkup
