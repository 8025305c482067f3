import DocMarkup.GtkDoc.Anchor
import DocMarkup.Proofs.Text.Lowering

/-!
Words of names in anchors.

Words are separated in two passes, of which the first goes over all small letters of a word and
so past a capital right behind them. These are the capitals that the second one finds. Together
they do what one pass does that looks at each capital with the characters beside it. A name that
is spelled with dashes has neither capitals nor underscores, so it is spelled the same again.
-/

namespace DocMarkup.Anchor

open Text

/-- A word begins at a capital that stands behind a small letter or a digit, or else in a line
and before a small letter. -/
def beginsWord (before char : Char) (after : List Char) : Bool :=
  char.isUpper &&
    (before.isLower || before.isDigit || (before != '\n' && startsLower after))

/-- Puts a mark where words begin in what follows a character. -/
def markAfter (mark before : Char) : List Char → List Char
  | [] => []
  | char :: after =>
      if beginsWord before char after then mark :: char :: markAfter mark char after
      else char :: markAfter mark char after

/-- Puts a mark where words begin, but not at the start of the name. -/
def markWords (mark : Char) : List Char → List Char
  | [] => []
  | first :: rest => first :: markAfter mark first rest

variable {char next before mark : Char} {rest chars : List Char} {inWord : Bool}

theorem isUpper_eq_false_of_isLower (h : char.isLower = true) : char.isUpper = false := by
  refine Bool.eq_false_iff.mpr fun hupper => ?_
  have hlow : 97 ≤ char.toNat :=
    UInt32.le_iff_toNat_le.mp (of_decide_eq_true (Bool.and_eq_true_iff.mp h).1)
  have hhigh := (bounds_of_isUpper hupper).2
  omega

theorem isDigit_eq_false_of_isUpper (h : char.isUpper = true) : char.isDigit = false := by
  refine Bool.eq_false_iff.mpr fun hdigit => ?_
  simp only [Char.isDigit, Bool.and_eq_true, decide_eq_true_eq] at hdigit
  have hlow := (bounds_of_isUpper h).1
  have hhigh : char.toNat ≤ 57 := UInt32.le_iff_toNat_le.mp hdigit.2
  omega

/-- A capital is not what the second pass looks for before another one, so that it separates all
of them although it goes on behind each. -/
theorem separateCapitals_cons :
    separateCapitals (char :: next :: rest) =
      if (char.isLower || char.isDigit) && next.isUpper then
        char :: '_' :: separateCapitals (next :: rest)
      else char :: separateCapitals (next :: rest) := by
  rw [separateCapitals]
  split
  · next h =>
      have hupper := (Bool.and_eq_true_iff.mp h).2
      have hlower : next.isLower = false :=
        Bool.eq_false_iff.mpr fun hlower => Bool.false_ne_true
          ((isUpper_eq_false_of_isLower hlower).symm.trans hupper)
      cases rest with
      | nil => rfl
      | cons other rest =>
          rw [separateCapitals.eq_3, hlower, isDigit_eq_false_of_isUpper hupper]
          rfl
  · rfl

theorem exists_separateWords_cons (inWord : Bool) (char : Char) (rest : List Char) :
    ∃ others, separateWords inWord (char :: rest) = char :: others := by
  cases rest with
  | nil => exact ⟨[], rfl⟩
  | cons next rest =>
      rw [separateWords]
      split
      · exact ⟨_, rfl⟩
      · split <;> exact ⟨_, rfl⟩

/-- The second pass finds those words that the first one has passed over. -/
theorem separateCapitals_separateWords (inWord : Bool) (name : List Char) :
    separateCapitals (separateWords inWord name) = markWords '_' name := by
  fun_induction separateWords inWord name with
  | case1 => rfl
  | case2 => rfl
  | case3 inWord char next rest h ih =>
      -- The first pass does not look at what stands behind the small letters of a word.
      obtain ⟨others, hothers⟩ := exists_separateWords_cons true next rest
      have hlower := (Bool.and_eq_true_iff.mp h).2
      have hbegins : beginsWord char next rest = next.isUpper := by simp [beginsWord, hlower]
      rw [hothers, separateCapitals_cons, ← hothers, ih, markWords, markWords, markAfter, hlower,
        hbegins]
      simp only [Bool.true_or, Bool.true_and]
      split <;> rfl
  | case4 inWord char next rest h hfirst ih =>
      obtain ⟨hupper, hstarts⟩ : next.isUpper = true ∧ startsLower rest = true := by
        simp only [Bool.and_eq_true] at hfirst
        exact ⟨hfirst.1.2, hfirst.2⟩
      have hbegins : beginsWord char next rest = true := by
        simp_all [beginsWord]
      cases rest with
      | nil => cases hstarts
      | cons letter rest =>
          obtain ⟨others, hothers⟩ := exists_separateWords_cons true letter rest
          have hletter : letter.isUpper = false := isUpper_eq_false_of_isLower hstarts
          have hnext : beginsWord next letter rest = false := by simp [beginsWord, hletter]
          rw [hothers, separateCapitals_cons, separateCapitals_cons, separateCapitals_cons,
            ← hothers, ih, markWords, markWords, markAfter, markAfter, hbegins, hnext, hletter]
          simp
  | case5 inWord char next rest h hfirst ih =>
      obtain ⟨others, hothers⟩ := exists_separateWords_cons false next rest
      have hbegins :
          beginsWord char next rest = ((char.isLower || char.isDigit) && next.isUpper) := by
        rw [beginsWord]
        grind
      rw [hothers, separateCapitals_cons, ← hothers, ih, markWords, markWords, markAfter, hbegins]
      split <;> rfl

def dashFor (char : Char) : Char :=
  if char = '_' then '-' else char

theorem isCased_dashFor (char : Char) : isCased (dashFor char) = isCased char := by
  unfold dashFor
  split
  · next h =>
      subst h
      decide +kernel
  · rfl

theorem isCaseIgnorable_dashFor (char : Char) :
    isCaseIgnorable (dashFor char) = isCaseIgnorable char := by
  unfold dashFor
  split
  · next h =>
      subst h
      decide +kernel
  · rfl

theorem map_lowerChar_dashFor (char : Char) :
    (lowerChar (dashFor char)).map dashFor = (lowerChar char).map dashFor := by
  unfold dashFor
  split
  · next h =>
      subst h
      decide
  · rfl

theorem dashFor_eq_sigma_iff : dashFor char = 'Σ' ↔ char = 'Σ' := by
  unfold dashFor
  split
  · next h =>
      subst h
      decide
  · rfl

theorem startsCased_map_dashFor (chars : List Char) :
    startsCased (chars.map dashFor) = startsCased chars := by
  have hignorable : isCaseIgnorable ∘ dashFor = isCaseIgnorable :=
    funext isCaseIgnorable_dashFor
  rw [startsCased, startsCased, List.dropWhile_map, hignorable]
  cases chars.dropWhile isCaseIgnorable with
  | nil => rfl
  | cons char rest => exact isCased_dashFor char

theorem lowerFrom_map_dashFor (before chars : List Char) :
    (lowerFrom (before.map dashFor) (chars.map dashFor)).map dashFor =
      (lowerFrom before chars).map dashFor := by
  induction chars generalizing before with
  | nil => rfl
  | cons char rest ih =>
      have hrest := ih (char :: before)
      rw [List.map_cons] at hrest
      rw [List.map_cons, lowerFrom, lowerFrom, List.map_append, List.map_append, hrest]
      congr 1
      by_cases hsigma : char = 'Σ'
      · rw [if_pos (dashFor_eq_sigma_iff.mpr hsigma), if_pos hsigma, lowerSigma, lowerSigma,
          startsCased_map_dashFor, startsCased_map_dashFor]
      · rw [if_neg (mt dashFor_eq_sigma_iff.mp hsigma), if_neg hsigma, map_lowerChar_dashFor]

theorem map_markAfter (before : Char) (name : List Char) :
    (markAfter '_' before name).map dashFor = (markAfter '-' before name).map dashFor := by
  induction name generalizing before with
  | nil => rfl
  | cons char rest ih =>
      rw [markAfter, markAfter]
      split
      · rw [List.map_cons, List.map_cons, List.map_cons, List.map_cons, ih]
        rfl
      · rw [List.map_cons, List.map_cons, ih]

theorem map_lowerChars_markWords (name : List Char) :
    (lowerChars (markWords '_' name)).map dashFor =
      (lowerChars (markWords '-' name)).map dashFor := by
  have hmarks : (markWords '_' name).map dashFor = (markWords '-' name).map dashFor := by
    cases name with
    | nil => rfl
    | cons first rest => rw [markWords, markWords, List.map_cons, List.map_cons, map_markAfter]
  rw [lowerChars, lowerChars, ← lowerFrom_map_dashFor [], hmarks, lowerFrom_map_dashFor]

theorem dashedChars_eq (name : List Char) :
    dashedChars name = (lowerChars (markWords '-' name)).map dashFor := by
  rw [← map_lowerChars_markWords, ← separateCapitals_separateWords false]
  rfl

theorem markAfter_of_isLower (h : IsLower chars) : markAfter mark before chars = chars := by
  induction chars generalizing before with
  | nil => rfl
  | cons char rest ih =>
      obtain ⟨hchar, hrest⟩ := List.forall_mem_cons.mp h
      rw [markAfter, beginsWord, isUpper_eq_false_of_lowerChar hchar, Bool.false_and,
        if_neg Bool.false_ne_true, ih hrest]

theorem markWords_of_isLower (h : IsLower chars) : markWords mark chars = chars := by
  cases chars with
  | nil => rfl
  | cons first rest => rw [markWords, markAfter_of_isLower (List.forall_mem_cons.mp h).2]

theorem underscore_not_mem_dashedChars (name : List Char) : '_' ∉ dashedChars name := by
  rw [dashedChars_eq]
  intro hmem
  obtain ⟨char, -, hchar⟩ := List.mem_map.mp hmem
  unfold dashFor at hchar
  split at hchar
  · exact absurd hchar (by decide)
  · next h => exact h hchar

theorem isLower_dashedChars (name : List Char) : IsLower (dashedChars name) := by
  rw [dashedChars_eq]
  intro out hout
  obtain ⟨char, hchar, rfl⟩ := List.mem_map.mp hout
  unfold dashFor
  split
  · decide
  · exact isLower_lowerFrom [] _ char hchar

theorem dashedChars_dashedChars (name : List Char) :
    dashedChars (dashedChars name) = dashedChars name := by
  have hlower := isLower_dashedChars name
  rw [dashedChars_eq (dashedChars name), markWords_of_isLower hlower, lowerChars,
    hlower.lowerFrom_eq_self]
  calc
    _ = (dashedChars name).map id := by
        refine List.map_congr_left fun char hchar => if_neg fun heq => ?_
        exact underscore_not_mem_dashedChars name (heq ▸ hchar)
    _ = _ := List.map_id _

/-- A name is spelled with dashes by one look at each of its capitals. The spelling has no
underscores, and is spelled the same again. -/
theorem dashed_scans (name : String) :
    (dashed name).toList = (lowerChars (markWords '-' name.toList)).map dashFor ∧
      '_' ∉ (dashed name).toList ∧ dashed (dashed name) = dashed name := by
  have hchars : (dashed name).toList = dashedChars name.toList := String.toList_ofList
  refine ⟨hchars.trans (dashedChars_eq _), ?_, ?_⟩
  · rw [hchars]
    exact underscore_not_mem_dashedChars _
  · rw [dashed, hchars, dashedChars_dashedChars, dashed]

example : dashed "HTTPServer" = "http-server" := by decide +kernel

end DocMarkup.Anchor
