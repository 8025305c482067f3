import DocMarkup.Pattern.Reading
import DocMarkup.Proofs.Comment.Longest
import DocMarkup.Proofs.GtkDoc.Anchor
import DocMarkup.Proofs.Pattern.Replacing

/-!
The two passes that separate the words of a name replace the matches of two patterns. In those the
groups have names, as others are not recorded.
-/

namespace DocMarkup

namespace Anchor

open Pattern (oneOf oneOrMore loop replaceAll Replaces Finds Fails Takes Reaches Todo Label)

/-- The two groups of a match with an underscore between them. -/
def joinGroups (found : Pattern.Match) (text : List Char) : List Char :=
  (found.group? "before" text).getD [] ++ '_' :: (found.group? "word" text).getD []

def lower : CharSet :=
  .range 'a' 'z'

def upper : CharSet :=
  .range 'A' 'Z'

def wordPattern : Pattern :=
  .seq (.group "before" (oneOf (.complement (.single '\n'))))
    (.group "word" (.seq (oneOf upper) (oneOrMore true (oneOf lower))))

def capitalPattern : Pattern :=
  .seq (.group "before" (oneOf (.union lower (.range '0' '9')))) (.group "word" (oneOf upper))

theorem wordPattern_read :
    (Expression.read? "(?P<before>.)(?P<word>[A-Z][a-z]+)".toList).map Expression.pattern =
      some wordPattern := by decide +kernel

theorem capitalPattern_read :
    (Expression.read? "(?P<before>[a-z0-9])(?P<word>[A-Z])".toList).map Expression.pattern =
      some capitalPattern := by decide +kernel

theorem contains_lower (char : Char) : lower.contains char = char.isLower := rfl

theorem contains_upper (char : Char) : upper.contains char = char.isUpper :=
  (Bool.decide_and _ _).symm

theorem contains_digit (char : Char) : (CharSet.range '0' '9').contains char = char.isDigit := rfl

variable {subject : Subject} {rest : Todo} {label : Label} {name : String} {body : Pattern}
  {position : Nat} {trace : Pattern.Trace} {found : Pattern.Match}

theorem reaches_group (h : Reaches subject (⟨label, .group name body⟩ :: rest) position trace found) :
    Reaches subject (⟨Pattern.inner (Pattern.inner label 2) 1, body⟩ ::
      ⟨Pattern.inner (Pattern.inner label 2) 2, .mark (.stop name)⟩ :: rest) position
      (trace.pass (.start name) position) found :=
  ((h.only rfl).only rfl).only rfl

theorem takes_group {start stop : Nat} (h : Takes subject body start stop []) (name : String) :
    ∃ passed, Takes subject (.group name body) start stop passed :=
  ⟨_, .seq .pass (.seq h .pass)⟩

theorem joinGroups_eq {char : Char} {word : List Char}
    (hmarks : found.marks = [(.stop "word", word.length + 1), (.start "word", 1),
      (.stop "before", 1), (.start "before", 0)]) :
    joinGroups found (char :: word) = char :: '_' :: word := by
  have hnodup : (found.marks.map Prod.fst).Nodup := by
    rw [hmarks]
    simp
  have hlookup : ∀ entry ∈ found.marks, found.marks.lookup entry.1 = some entry.2 :=
    fun entry hmem => Comment.lookup_of_mem hnodup hmem
  simp only [hmarks, List.forall_mem_cons] at hlookup
  obtain ⟨hwordStop, hwordStart, hbeforeStop, hbeforeStart, -⟩ := hlookup
  simp [joinGroups, Pattern.Match.group?, Pattern.Match.span?, hmarks, hwordStop, hwordStart,
    hbeforeStop, hbeforeStart]

theorem drop_eq_of_getElem? {text : List Char} {char : Char} (h : text[position]? = some char) :
    text.drop position = char :: text.drop (position + 1) := by
  obtain ⟨hlt, rfl⟩ := List.getElem?_eq_some_iff.mp h
  exact List.drop_eq_getElem_cons hlt

theorem capitalPattern_found
    (h : Finds subject [] [⟨.whole, capitalPattern⟩] position ⟨position, []⟩ found) :
    ∃ char next, subject.text[position]? = some char ∧ subject.text[position + 1]? = some next ∧
      (char.isLower || char.isDigit) = true ∧ next.isUpper = true ∧ found.stop = position + 2 ∧
      joinGroups found [char, next] = [char, '_', next] := by
  have hbefore := reaches_group ((Reaches.of_finds h).only rfl)
  obtain ⟨char, hchar, hset, hafter⟩ := hbefore.take rfl
  have hword := reaches_group (hafter.only rfl)
  obtain ⟨next, hnext, hupper, hstop⟩ := hword.take rfl
  have hfound := (hstop.only rfl).found_eq
  rw [contains_upper] at hupper
  refine ⟨char, next, hchar, hnext, hset, hupper, ?_, joinGroups_eq ?_⟩
  · rw [hfound]
    exact Nat.add_sub_cancel' (Nat.le_add_right position 2)
  · rw [hfound]
    simp [Pattern.Trace.finish, Pattern.Trace.follow, Pattern.Trace.pass, Nat.add_assoc]

theorem capitalPattern_not_fails {char next : Char} (hchar : subject.text[position]? = some char)
    (hnext : subject.text[position + 1]? = some next)
    (hlower : (char.isLower || char.isDigit) = true) (hupper : next.isUpper = true) :
    ¬ Fails subject [] [⟨.whole, capitalPattern⟩] position := by
  rw [← contains_upper] at hupper
  have hset : (CharSet.union lower (.range '0' '9')).contains char = true := hlower
  obtain ⟨_, hbefore⟩ := takes_group (.oneOf hchar hset) "before"
  obtain ⟨_, hword⟩ := takes_group (.oneOf hnext hupper) "word"
  exact (Takes.seq hbefore hword).not_fails _

theorem separateCapitals_replaces : Replaces capitalPattern joinGroups separateCapitals where
  nil := rfl
  skip := by
    intro subject position char hfails hchar
    rw [drop_eq_of_getElem? hchar]
    cases hrest : subject.text.drop (position + 1) with
    | nil => rfl
    | cons next rest =>
        have hnext : subject.text[position + 1]? = some next := by
          rw [← List.head?_drop, hrest, List.head?_cons]
        rw [separateCapitals, if_neg]
        intro h
        obtain ⟨hlower, hupper⟩ := Bool.and_eq_true_iff.mp h
        exact capitalPattern_not_fails hchar hnext hlower hupper hfails
  hit := by
    intro subject position found hfinds
    obtain ⟨char, next, hchar, hnext, hlower, hupper, hstop, hjoin⟩ :=
      capitalPattern_found hfinds
    refine ⟨by omega, ?_⟩
    have hdrop : subject.text.drop position =
        char :: next :: subject.text.drop (position + 2) := by
      rw [drop_eq_of_getElem? hchar, drop_eq_of_getElem? hnext]
    rw [hstop, List.drop_take, Nat.add_sub_cancel_left, hdrop]
    show _ = joinGroups found [char, next] ++ _
    rw [hjoin, separateCapitals, hlower, hupper]
    rfl

theorem separateWords_cons_of_not_word {char : Char} {rest : List Char}
    (h : ∀ next after, rest = next :: after →
      ¬ (char ≠ '\n' ∧ next.isUpper = true ∧ startsLower after = true)) :
    separateWords false (char :: rest) = char :: separateWords false rest := by
  cases rest with
  | nil => rfl
  | cons next after =>
      have hnot := h next after rfl
      rw [separateWords, Bool.false_and, if_neg Bool.false_ne_true, if_neg]
      simpa using hnot

theorem separateWords_letters {letters rest : List Char}
    (hletters : ∀ char ∈ letters, char.isLower = true) (hrest : startsLower rest = false) :
    separateWords true (letters ++ rest) = letters ++ separateWords false rest := by
  induction letters with
  | nil =>
      match rest with
      | [] => rfl
      | [_] => rfl
      | char :: next :: rest =>
          have hchar : char.isLower = false := hrest
          rw [List.nil_append, List.nil_append, separateWords, separateWords, hchar]
          rfl
  | cons char letters ih =>
      obtain ⟨hchar, hletters⟩ := List.forall_mem_cons.mp hletters
      rw [List.cons_append, List.cons_append, ← ih hletters]
      cases letters ++ rest with
      | nil => rfl
      | cons next after => rw [separateWords, hchar, Bool.true_and, if_pos rfl]

theorem startsLower_drop_eq_false {rest : Todo} {start stop : Nat} {letters : List Char}
    (hrest : Pattern.Ends subject rest (stop + 1))
    (h : (Comment.Run.mk lower .some none).Fills subject rest start stop letters) :
    startsLower (subject.text.drop stop) = false := by
  cases hdrop : subject.text.drop stop with
  | nil => rfl
  | cons next after =>
      refine Bool.eq_false_iff.mpr fun hnext => ?_
      have hchar := congrArg List.head? hdrop
      rw [List.head?_drop, List.head?_cons] at hchar
      have hmore : Comment.Spans subject.text stop (stop + 1) [next] :=
        ⟨drop_eq_of_getElem? hchar, rfl⟩
      have hadmits : (Comment.Run.mk lower .some none).Admits (letters ++ [next]) :=
        ⟨List.forall_mem_append.mpr ⟨h.admits.contains, List.forall_mem_singleton.mpr hnext⟩,
          List.append_ne_nil_of_right_ne_nil _ (List.cons_ne_nil _ _)⟩
      exact h.longest [next] (stop + 1) (List.cons_ne_nil _ _) hmore hadmits hrest

theorem wordPattern_found
    (h : Finds subject [] [⟨.whole, wordPattern⟩] position ⟨position, []⟩ found) :
    ∃ char next letters rest,
      subject.text.drop position = char :: next :: (letters ++ rest) ∧
      char ≠ '\n' ∧ next.isUpper = true ∧ letters ≠ [] ∧
      (∀ letter ∈ letters, letter.isLower = true) ∧ startsLower rest = false ∧
      found.stop = position + (letters.length + 2) ∧
      joinGroups found (char :: next :: letters) = char :: '_' :: next :: letters := by
  have hbefore := reaches_group ((Reaches.of_finds h).only rfl)
  obtain ⟨char, hchar, hset, hafter⟩ := hbefore.take rfl
  have hword := reaches_group (hafter.only rfl)
  obtain ⟨next, hnext, hupper, hletters⟩ := (hword.only rfl).take rfl
  obtain ⟨letters, stop, hfills, hstop⟩ := Comment.exists_fills_body ⟨lower, .some, none⟩ hletters
  have hfound := (hstop.only rfl).found_eq
  rw [contains_upper] at hupper
  have hends := startsLower_drop_eq_false (.go rfl List.mem_cons_self ⟨0, .finish⟩) hfills
  have hstopEq : stop = position + (letters.length + 2) := by
    rw [hfills.spans.stop_eq]
    omega
  refine ⟨char, next, letters, subject.text.drop stop, ?_, by simpa using hset, hupper,
    hfills.admits.allows, hfills.admits.contains, hends, ?_, joinGroups_eq ?_⟩
  · rw [drop_eq_of_getElem? hchar, drop_eq_of_getElem? hnext, hfills.spans.drop_eq]
  · rw [hfound, hstopEq]
    exact Nat.add_sub_cancel' (Nat.le_add_right position _)
  · rw [hfound, hstopEq]
    simp [Pattern.Trace.finish, Pattern.Trace.follow, Pattern.Trace.pass]

theorem wordPattern_not_fails {char next letter : Char} (hchar : subject.text[position]? = some char)
    (hnext : subject.text[position + 1]? = some next)
    (hletter : subject.text[position + 2]? = some letter) (hline : char ≠ '\n')
    (hupper : next.isUpper = true) (hlower : letter.isLower = true) :
    ¬ Fails subject [] [⟨.whole, wordPattern⟩] position := by
  rw [← contains_upper] at hupper
  have hset : (CharSet.complement (.single '\n')).contains char = true := by simpa using hline
  rw [← contains_lower] at hlower
  obtain ⟨_, hbefore⟩ := takes_group (.oneOf hchar hset) "before"
  obtain ⟨_, hword⟩ := takes_group
    (.seq (.oneOf hnext hupper) (.oneOrMore (.oneOf hletter hlower) .loopEnd)) "word"
  exact (Takes.seq hbefore hword).not_fails _

theorem separateWords_replaces : Replaces wordPattern joinGroups (separateWords false) where
  nil := rfl
  skip := by
    intro subject position char hfails hchar
    rw [drop_eq_of_getElem? hchar]
    apply separateWords_cons_of_not_word
    intro next after hdrop h
    obtain ⟨hline, hupper, hlower⟩ := h
    cases after with
    | nil => cases hlower
    | cons letter after =>
        have hnext : subject.text[position + 1]? = some next := by
          rw [← List.head?_drop, hdrop, List.head?_cons]
        have hletter : subject.text[position + 2]? = some letter := by
          have hrest := congrArg List.tail hdrop
          rw [List.tail_drop, List.tail_cons] at hrest
          rw [← List.head?_drop, hrest, List.head?_cons]
        exact wordPattern_not_fails hchar hnext hletter hline hupper hlower hfails
  hit := by
    intro subject position found hfinds
    obtain ⟨char, next, letters, rest, hdrop, hline, hupper, hne, hletters, hrest, hstop, hjoin⟩ :=
      wordPattern_found hfinds
    refine ⟨by omega, ?_⟩
    have hpiece : (subject.text.take found.stop).drop position = char :: next :: letters := by
      rw [hstop, List.drop_take, Nat.add_sub_cancel_left, hdrop]
      simp
    have hleft : subject.text.drop found.stop = rest := by
      rw [hstop, ← List.drop_drop, hdrop]
      simp
    obtain ⟨letter, others, rfl⟩ := List.exists_cons_of_ne_nil hne
    have hword : startsLower (letter :: (others ++ rest)) = true := hletters letter List.mem_cons_self
    rw [hpiece, hjoin, hleft, hdrop, separateWords, Bool.false_and, if_neg Bool.false_ne_true,
      if_pos (by simp [hline, hupper, hword]), separateWords_letters hletters hrest]
    rfl

theorem dashedChars_eq_replaceAll (name : List Char) :
    dashedChars name =
      (Text.lowerChars (replaceAll capitalPattern joinGroups none
        (replaceAll wordPattern joinGroups none name))).map fun char =>
          if char = '_' then '-' else char := by
  rw [separateWords_replaces.replaceAll_eq, separateCapitals_replaces.replaceAll_eq, dashedChars]

end Anchor

end DocMarkup
