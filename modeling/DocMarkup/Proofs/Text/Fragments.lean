import Mathlib.Data.List.Chain
import DocMarkup.Proofs.Text.Escaping
import DocMarkup.Text.Fragment

/-!
The words of a text and what stands between them.

There is only one way to cut a text into words and separators such that no words are adjacent. It
comes out as well if the longest fragment is taken from the start of the text, again and again. No
reference goes over a separator, so a text can be split first and escaped afterwards.
-/

namespace DocMarkup.Text

namespace Fragment

def separators : List Char :=
  [' ', '(', ')']

theorem forall_mem_separators {p : Char → Prop} :
    (∀ char ∈ separators, p char) ↔ p ' ' ∧ p '(' ∧ p ')' := by
  simp [separators]

/-- Each separator is a fragment of its own. A word has no separator in it, and is not empty. -/
inductive Shaped : Fragment → List Char → Prop
  | space : Shaped .space [' ']
  | opening : Shaped .opening ['(']
  | closing : Shaped .closing [')']
  | word {chars : List Char} (hne : chars ≠ []) (hchars : ∀ char ∈ chars, char ∉ separators) :
      Shaped .word chars

theorem separator?_eq_none_iff {char : Char} : separator? char = none ↔ char ∉ separators := by
  unfold separator?
  split <;> simp_all [separators]

theorem shaped_of_separator? {char : Char} {fragment : Fragment}
    (h : separator? char = some fragment) : Shaped fragment [char] ∧ fragment ≠ .word := by
  unfold separator? at h
  split at h <;> cases h
  · exact ⟨.space, by decide⟩
  · exact ⟨.opening, by decide⟩
  · exact ⟨.closing, by decide⟩

theorem exists_shaped (char : Char) : ∃ fragment, Shaped fragment [char] := by
  cases h : separator? char with
  | none =>
      have hchar : char ∉ separators := separator?_eq_none_iff.mp h
      exact ⟨.word, .word (List.cons_ne_nil _ _) (by simpa using hchar)⟩
  | some fragment => exact ⟨fragment, (shaped_of_separator? h).1⟩

namespace Shaped

variable {fragment other : Fragment} {chars : List Char}

theorem ne_nil (h : Shaped fragment chars) : chars ≠ [] := by
  cases h with
  | word hne _ => exact hne
  | _ => exact List.cons_ne_nil _ _

theorem eq_singleton (h : Shaped fragment chars) (hfragment : fragment ≠ .word) :
    ∃ char ∈ separators, chars = [char] := by
  cases h with
  | word => exact absurd rfl hfragment
  | _ => exact ⟨_, by decide, rfl⟩

theorem forall_not_mem (h : Shaped .word chars) : ∀ char ∈ chars, char ∉ separators := by
  cases h with
  | word _ hchars => exact hchars

theorem eq_word (h : Shaped fragment chars) (hchars : ∀ char ∈ chars, char ∉ separators) :
    fragment = .word := by
  by_contra hfragment
  obtain ⟨char, hchar, rfl⟩ := h.eq_singleton hfragment
  exact hchars char List.mem_cons_self hchar

theorem separator?_head {char : Char} (h : Shaped fragment (char :: chars)) :
    (separator? char).getD .word = fragment := by
  cases h with
  | word _ hchars => rw [separator?_eq_none_iff.mpr (hchars char List.mem_cons_self)]; rfl
  | _ => rfl

theorem unique (h : Shaped fragment chars) (hother : Shaped other chars) : fragment = other := by
  obtain ⟨char, rest, rfl⟩ := List.exists_cons_of_ne_nil h.ne_nil
  exact h.separator?_head.symm.trans hother.separator?_head

end Shaped

def Stops (text : List Char) : Prop :=
  ∀ char ∈ text.head?, char ∈ separators

theorem Shaped.stops_iff {fragment : Fragment} {chars : List Char} (h : Shaped fragment chars)
    (rest : List Char) : Stops (chars ++ rest) ↔ fragment ≠ .word := by
  cases h with
  | word hne hchars =>
      obtain ⟨char, chars, rfl⟩ := List.exists_cons_of_ne_nil hne
      simpa [Stops] using hchars char List.mem_cons_self
  | _ => simp [Stops, separators]

/-- No longer fragment can be taken from the start of the text. -/
def Longest (chars text : List Char) : Prop :=
  ∀ fragment longer, Shaped fragment longer → longer <+: text → longer.length ≤ chars.length

section

variable {fragment : Fragment} {chars rest : List Char}

theorem Shaped.stops_of_longest (h : Shaped .word chars)
    (hlongest : Longest chars (chars ++ rest)) : Stops rest := by
  intro char hhead
  obtain ⟨rest, rfl⟩ := List.head?_eq_some_iff.mp hhead
  -- A character that is no separator would make the word longer.
  by_contra hchar
  have hlonger : Shaped .word (chars ++ [char]) :=
    .word (by simp) (List.forall_mem_append.mpr ⟨h.forall_not_mem, by simpa using hchar⟩)
  have hle := hlongest .word (chars ++ [char]) hlonger ⟨rest, by simp⟩
  rw [List.length_append] at hle
  exact absurd hle (Nat.not_succ_le_self _)

theorem Shaped.longest_of_stops (h : Shaped fragment chars)
    (hstops : fragment = .word → Stops rest) : Longest chars (chars ++ rest) := by
  intro other longer hlonger hprefix
  by_cases hother : other = .word
  · obtain hshorter | ⟨more, rfl⟩ :=
      List.prefix_or_prefix_of_prefix hprefix (List.prefix_append chars rest)
    · exact hshorter.length_le
    · -- What a longer word adds would start with a separator.
      obtain ⟨hchars, hmore⟩ := List.forall_mem_append.mp (hother ▸ hlonger).forall_not_mem
      cases more with
      | nil => simp
      | cons char more =>
          obtain ⟨after, rfl⟩ := (List.prefix_append_right_inj chars).mp hprefix
          have hchar : char ∈ separators := hstops (h.eq_word hchars) char rfl
          exact absurd hchar (hmore char List.mem_cons_self)
  · obtain ⟨char, -, rfl⟩ := hlonger.eq_singleton hother
    exact List.length_pos_iff.mpr h.ne_nil

theorem Shaped.longest_iff (h : Shaped fragment chars) :
    Longest chars (chars ++ rest) ↔ (fragment = .word → Stops rest) := by
  constructor
  · rintro hlongest rfl
    exact h.stops_of_longest hlongest
  · exact h.longest_of_stops

end

/-- The text is cut into fragments, and no words are adjacent. -/
structure Cut (text : List Char) (pieces : List (Fragment × List Char)) : Prop where
  whole : pieces.flatMap Prod.snd = text
  shaped : ∀ piece ∈ pieces, Shaped piece.1 piece.2
  apart : pieces.IsChain fun first second => first.1 = .word → second.1 ≠ .word

theorem cut_nil : Cut [] [] where
  whole := rfl
  shaped := List.forall_mem_nil _
  apart := List.isChain_nil

section

variable {text : List Char} {pieces : List (Fragment × List Char)}

theorem Cut.stops_iff (h : Cut text pieces) :
    Stops text ↔ ∀ piece ∈ pieces.head?, piece.1 ≠ .word := by
  obtain ⟨rfl, hshaped, -⟩ := h
  cases pieces with
  | nil => simp [Stops]
  | cons piece pieces =>
      rw [List.flatMap_cons, (hshaped piece List.mem_cons_self).stops_iff]
      simp

theorem Cut.eq_nil_iff (h : Cut text pieces) : pieces = [] ↔ text = [] := by
  obtain ⟨rfl, hshaped, -⟩ := h
  cases pieces with
  | nil => simp
  | cons piece pieces => simp [(hshaped piece List.mem_cons_self).ne_nil]

theorem cut_cons_iff {fragment : Fragment} {chars rest : List Char} :
    Cut (chars ++ rest) ((fragment, chars) :: pieces) ↔
      Shaped fragment chars ∧ Longest chars (chars ++ rest) ∧ Cut rest pieces := by
  constructor
  · intro h
    obtain ⟨hfirst, hshaped⟩ := List.forall_mem_cons.mp h.shaped
    obtain ⟨hnext, hapart⟩ := List.isChain_cons.mp h.apart
    have hrest : Cut rest pieces := ⟨List.append_cancel_left h.whole, hshaped, hapart⟩
    refine ⟨hfirst, hfirst.longest_iff.mpr fun hword => ?_, hrest⟩
    exact hrest.stops_iff.mpr fun piece hpiece => hnext piece hpiece hword
  · rintro ⟨hfirst, hlongest, hrest⟩
    have hstops := hfirst.longest_iff.mp hlongest
    refine ⟨?_, List.forall_mem_cons.mpr ⟨hfirst, hrest.shaped⟩,
      List.isChain_cons.mpr ⟨fun piece hpiece hword => ?_, hrest.apart⟩⟩
    · rw [List.flatMap_cons, hrest.whole]
    · exact hrest.stops_iff.mp (hstops hword) piece hpiece

theorem Cut.uncons {fragment : Fragment} {chars : List Char}
    (h : Cut text ((fragment, chars) :: pieces)) :
    ∃ rest, text = chars ++ rest ∧
      Shaped fragment chars ∧ Longest chars text ∧ Cut rest pieces := by
  obtain rfl : chars ++ pieces.flatMap Prod.snd = text := h.whole
  exact ⟨_, rfl, cut_cons_iff.mp h⟩

theorem Cut.unique {other : List (Fragment × List Char)} (h : Cut text pieces)
    (hother : Cut text other) : pieces = other := by
  induction pieces generalizing text other with
  | nil => exact (hother.eq_nil_iff.mpr (h.eq_nil_iff.mp rfl)).symm
  | cons piece pieces ih =>
      cases other with
      | nil => exact h.eq_nil_iff.mpr (hother.eq_nil_iff.mp rfl)
      | cons second other =>
          obtain ⟨kind, chars⟩ := piece
          obtain ⟨kind', chars'⟩ := second
          obtain ⟨rest, htext, hshaped, hlongest, hrest⟩ := h.uncons
          obtain ⟨rest', htext', hshaped', hlongest', hrest'⟩ := hother.uncons
          have hlength : chars.length = chars'.length :=
            Nat.le_antisymm (hlongest' kind chars hshaped ⟨rest, htext.symm⟩)
              (hlongest kind' chars' hshaped' ⟨rest', htext'.symm⟩)
          obtain ⟨rfl, rfl⟩ := List.append_inj (htext.symm.trans htext') hlength
          rw [hshaped.unique hshaped', ih hrest hrest']

end

theorem cut_splitChars (chars : List Char) : Cut chars (splitChars chars) := by
  induction chars with
  | nil => exact cut_nil
  | cons char rest ih =>
      rw [splitChars]
      split
      · next fragment hsome =>
          obtain ⟨hshaped, hfragment⟩ := shaped_of_separator? hsome
          exact cut_cons_iff.mpr ⟨hshaped, hshaped.longest_iff.mpr (absurd · hfragment), ih⟩
      · next chars pieces hnone hrest =>
          rw [hrest] at ih
          obtain ⟨rest, rfl, hshaped, hlongest, hcut⟩ := ih.uncons
          have hword : Shaped .word (char :: chars) :=
            .word (List.cons_ne_nil _ _)
              (List.forall_mem_cons.mpr ⟨separator?_eq_none_iff.mp hnone, hshaped.forall_not_mem⟩)
          have hstops := hshaped.longest_iff.mp hlongest
          exact cut_cons_iff.mpr ⟨hword, hword.longest_iff.mpr hstops, hcut⟩
      · next hnone hrest =>
          have hword : Shaped .word [char] :=
            .word (List.cons_ne_nil _ _) (by simpa using separator?_eq_none_iff.mp hnone)
          have hstops : Stops rest := by
            refine ih.stops_iff.mpr fun piece hpiece hfragment => ?_
            obtain ⟨pieces, hpieces⟩ := List.head?_eq_some_iff.mp hpiece
            exact hrest piece.2 pieces (by rw [hpieces, ← hfragment])
          exact cut_cons_iff.mpr ⟨hword, hword.longest_iff.mpr fun _ => hstops, ih⟩

theorem splitChars_eq_iff {chars : List Char} {pieces : List (Fragment × List Char)} :
    splitChars chars = pieces ↔ Cut chars pieces := by
  constructor
  · rintro rfl
    exact cut_splitChars chars
  · exact (cut_splitChars chars).unique

/-- The text is read from its start by the longest fragment there is, again and again. Where none
starts, something is skipped. -/
inductive Read : List Char → List (Option Fragment × List Char) → Prop
  | done : Read [] []
  | fragment {fragment : Fragment} {chars rest : List Char}
      {tokens : List (Option Fragment × List Char)} (hshaped : Shaped fragment chars)
      (hlongest : Longest chars (chars ++ rest)) (hrest : Read rest tokens) :
      Read (chars ++ rest) ((some fragment, chars) :: tokens)
  | skipped {chars rest : List Char} {tokens : List (Option Fragment × List Char)}
      (hne : chars ≠ [])
      (hnone : ∀ fragment first, Shaped fragment first → ¬ first <+: chars ++ rest)
      (hrest : Read rest tokens) : Read (chars ++ rest) ((none, chars) :: tokens)

theorem Cut.read {text : List Char} {pieces : List (Fragment × List Char)} (h : Cut text pieces) :
    Read text (pieces.map (Prod.map some id)) := by
  induction pieces generalizing text with
  | nil =>
      obtain rfl := h.eq_nil_iff.mp rfl
      exact .done
  | cons piece pieces ih =>
      obtain ⟨rest, rfl, hshaped, hlongest, hrest⟩ := h.uncons
      exact .fragment hshaped hlongest (ih hrest)

theorem read_iff {text : List Char} {tokens : List (Option Fragment × List Char)} :
    Read text tokens ↔ tokens = (splitChars text).map (Prod.map some id) := by
  constructor
  · intro h
    induction h with
    | done => rfl
    | @fragment fragment chars rest tokens hshaped hlongest _ ih =>
        have hcut := cut_cons_iff.mpr ⟨hshaped, hlongest, cut_splitChars rest⟩
        rw [splitChars_eq_iff.mpr hcut, ih]
        rfl
    | @skipped chars rest tokens hne hnone =>
        obtain ⟨char, chars, rfl⟩ := List.exists_cons_of_ne_nil hne
        obtain ⟨fragment, hshaped⟩ := exists_shaped char
        exact absurd ⟨chars ++ rest, rfl⟩ (hnone fragment [char] hshaped)
  · rintro rfl
    exact (cut_splitChars text).read

theorem Stops.escapeChars_append {rest : List Char} (h : Stops rest) (chars : List Char) :
    escapeChars (chars ++ rest) = escapeChars chars ++ escapeChars rest := by
  have hseparators : ∀ char ∈ separators, char.isAlphanum = false ∧ char ≠ '#' ∧ char ≠ ';' :=
    forall_mem_separators.mpr (by decide)
  simp only [escapeChars_eq]
  refine escapeKeeping_append fun before after _ => ?_
  cases rest with
  | nil => rw [List.append_nil]
  | cons char rest =>
      obtain ⟨halphanum, hhash, hsemicolon⟩ := hseparators char (h char rfl)
      exact startsReference_append_cons halphanum hhash hsemicolon after rest

theorem escapeChars_cons_separator {char : Char} (h : char ∈ separators) (rest : List Char) :
    escapeChars (char :: rest) = char :: escapeChars rest := by
  have hplain : ∀ char ∈ separators, char ≠ '&' ∧ char ≠ '<' ∧ char ≠ '>' :=
    forall_mem_separators.mpr (by decide)
  exact escapeChars_append_plain (List.forall_mem_singleton.mpr (hplain char h)) rest

theorem Stops.escapeChars {text : List Char} (h : Stops text) : Stops (escapeChars text) := by
  cases text with
  | nil => exact h
  | cons char rest =>
      rw [escapeChars_cons_separator (h char rfl)]
      exact h

theorem Shaped.escapeChars {fragment : Fragment} {chars : List Char} (h : Shaped fragment chars) :
    Shaped fragment (escapeChars chars) := by
  have hmarkup : ∀ char ∈ separators,
      char ∉ "&amp;".toList ++ "&lt;".toList ++ "&gt;".toList :=
    forall_mem_separators.mpr (by decide)
  cases h with
  | @word chars hne hchars =>
      refine .word (escapeChars_ne_nil hne) fun char hmem hchar => ?_
      exact not_mem_escapeChars (fun hchars' => hchars char hchars' hchar) (hmarkup char hchar) hmem
  | space => exact .space
  | opening => exact .opening
  | closing => exact .closing

theorem Shaped.escapeChars_append {fragment : Fragment} {chars rest : List Char}
    (h : Shaped fragment chars) (hlongest : Longest chars (chars ++ rest)) :
    Text.escapeChars (chars ++ rest) = Text.escapeChars chars ++ Text.escapeChars rest := by
  by_cases hfragment : fragment = .word
  · exact (h.longest_iff.mp hlongest hfragment).escapeChars_append chars
  · obtain ⟨char, hchar, rfl⟩ := h.eq_singleton hfragment
    rw [List.singleton_append, escapeChars_cons_separator hchar, escapeChars_cons_separator hchar]
    rfl

theorem Cut.escapeChars {text : List Char} {pieces : List (Fragment × List Char)}
    (h : Cut text pieces) :
    Cut (escapeChars text) (pieces.map (Prod.map id Text.escapeChars)) := by
  induction pieces generalizing text with
  | nil =>
      obtain rfl := h.eq_nil_iff.mp rfl
      exact cut_nil
  | cons piece pieces ih =>
      obtain ⟨rest, rfl, hshaped, hlongest, hrest⟩ := h.uncons
      have hstops := hshaped.longest_iff.mp hlongest
      rw [hshaped.escapeChars_append hlongest]
      refine cut_cons_iff.mpr ⟨hshaped.escapeChars, ?_, ih hrest⟩
      exact hshaped.escapeChars.longest_iff.mpr fun hword => (hstops hword).escapeChars

theorem map_split {β : Type} (label : Fragment → β) (text : String) :
    (split text).map (Prod.map label String.toList) =
      (splitChars text.toList).map (Prod.map label id) := by
  rw [split, List.map_map]
  exact List.map_congr_left fun piece _ => by simp [Prod.map]

theorem split_eq_iff {text : String} {pieces : List (Fragment × String)} :
    split text = pieces ↔ Cut text.toList (pieces.map (Prod.map id String.toList)) := by
  rw [← splitChars_eq_iff]
  constructor
  · rintro rfl
    rw [map_split, Prod.map_id, List.map_id]
  · intro h
    rw [split, h, List.map_map]
    simp [Function.comp_def]

theorem flatMap_split (text : String) :
    (split text).flatMap (fun fragment => fragment.2.toList) = text.toList := by
  simpa [List.flatMap_map] using (split_eq_iff.mp (Eq.refl (split text))).whole

theorem ne_empty_of_mem_split {text : String} {fragment : Fragment × String}
    (h : fragment ∈ split text) : fragment.2 ≠ "" := by
  obtain ⟨⟨kind, chars⟩, hmem, rfl⟩ := List.mem_map.mp h
  have hne := ((cut_splitChars text.toList).shaped _ hmem).ne_nil
  simpa [← String.toList_inj] using hne

/-- Splitting is the only way to cut a text into words and separators such that no words are
adjacent. It gives what is read by the longest fragments, and then nothing is skipped. The
fragments of the escaped text are those of the text, each one escaped. -/
theorem split_cuts (text : String) :
    (∀ pieces, split text = pieces ↔ Cut text.toList (pieces.map (Prod.map id String.toList))) ∧
      (∀ tokens, Read text.toList tokens ↔
        tokens = (split text).map (Prod.map some String.toList)) ∧
      split (escape text) = (split text).map (Prod.map id escape) := by
  refine ⟨fun pieces => split_eq_iff, fun tokens => ?_, ?_⟩
  · rw [read_iff, map_split]
  · have hcut := (split_eq_iff.mp (Eq.refl (split text))).escapeChars
    rw [split_eq_iff, toList_escape]
    simpa [Function.comp_def, Prod.map] using hcut

/-- An ampersand is escaped in its word as it is in the text. -/
example : split (escape "(&lt &lt;)") =
    [(.opening, "("), (.word, "&amp;lt"), (.space, " "), (.word, "&lt;"), (.closing, ")")] := by
  decide +kernel

end Fragment

end DocMarkup.Text
