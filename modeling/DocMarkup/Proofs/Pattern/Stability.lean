import DocMarkup.Pattern.Lexeme
import Mathlib.Data.List.TakeWhile

/-!
Readers do not depend on what follows.

What a reader takes from a text it takes from a longer one as well, and leaves so much more.
-/

namespace DocMarkup

namespace Lexeme

def Stable {α : Type} (read : Read α) : Prop :=
  ∀ ⦃input value rest⦄, read input = some (value, rest) → ∀ more,
    read (input ++ more) = some (value, rest ++ more)

namespace Stable

variable {α β : Type}

theorem pure (value : α) : Stable (pure value) := by
  intro input other rest h more
  obtain ⟨rfl, rfl⟩ := pure_eq_some_iff.mp h
  rfl

theorem lift (result : Option α) : Stable (liftM result) := by
  intro input value rest h more
  obtain ⟨hresult, rfl⟩ := lift_eq_some_iff.mp h
  exact lift_eq_some_iff.mpr ⟨hresult, rfl⟩

theorem bind {read : Read α} {after : α → Read β} (hread : Stable read)
    (hafter : ∀ value, Stable (after value)) : Stable (read >>= after) := by
  intro input value rest h more
  obtain ⟨first, left, hfirst, hrest⟩ := bind_eq_some_iff.mp h
  exact bind_eq_some_iff.mpr ⟨first, left ++ more, hread hfirst more, hafter first hrest more⟩

theorem map {read : Read α} (hread : Stable read) (change : α → β) :
    Stable (change <$> read) := by
  intro input value rest h more
  obtain ⟨first, hfirst, hchange⟩ := map_eq_some_iff.mp h
  exact map_eq_some_iff.mpr ⟨first, hread hfirst more, hchange⟩

end Stable

section

variable {test : Char → Bool} {input rest : List Char} {char : Char}

theorem takeWhile_append_of_dropWhile (h : input.dropWhile test = char :: rest)
    (more : List Char) : (input ++ more).takeWhile test = input.takeWhile test := by
  induction input with
  | nil => cases h
  | cons first input ih =>
      rw [List.dropWhile_cons] at h
      rw [List.cons_append, List.takeWhile_cons, List.takeWhile_cons]
      split
      · next htest =>
          rw [if_pos htest] at h
          rw [ih h]
      · rfl

theorem dropWhile_append_of_dropWhile (h : input.dropWhile test = char :: rest)
    (more : List Char) : (input ++ more).dropWhile test = char :: (rest ++ more) := by
  induction input with
  | nil => cases h
  | cons first input ih =>
      rw [List.dropWhile_cons] at h
      rw [List.cons_append, List.dropWhile_cons]
      split
      · next htest =>
          rw [if_pos htest] at h
          exact ih h
      · next htest =>
          rw [if_neg htest] at h
          cases h
          rfl

theorem mem_takeWhile_append (h : char ∈ input.takeWhile test) (more : List Char) :
    char ∈ (input ++ more).takeWhile test := by
  rw [List.takeWhile_append]
  split
  · exact List.mem_append_left _ ((List.takeWhile_prefix test).mem h)
  · exact h

end

theorem nextFrom_append {verbose inComment : Bool} {input rest : List Char} {char : Char}
    (h : nextFrom verbose inComment input = some (char, rest)) (more : List Char) :
    nextFrom verbose inComment (input ++ more) = some (char, rest ++ more) := by
  fun_induction nextFrom verbose inComment input with
  | case1 => cases h
  | case2 first input ih =>
      rw [List.cons_append, nextFrom]
      exact ih h
  | case3 first input hblank ih =>
      rw [List.cons_append, nextFrom, if_pos hblank]
      exact ih h
  | case4 first input hblank hhash ih =>
      rw [List.cons_append, nextFrom, if_neg hblank, if_pos hhash]
      exact ih h
  | case5 first input hblank hhash =>
      cases h
      rw [List.cons_append, nextFrom, if_neg hblank, if_neg hhash]

theorem stable_next (verbose : Bool) : Stable (next verbose) :=
  fun _ _ _ h => nextFrom_append h

theorem stable_look (verbose : Bool) : Stable (look verbose) := by
  intro input char rest h more
  obtain ⟨⟨first, left⟩, hfirst, heq⟩ := Option.map_eq_some_iff.mp h
  cases heq
  rw [look, stable_next verbose hfirst more, Option.map_some]

theorem bracedFrom_eq (verbose : Bool) (input : List Char) :
    bracedFrom verbose input =
      match next verbose input with
      | none => none
      | some (char, rest) =>
          if char = '\x7d' then some ([], rest)
          else (bracedFrom verbose rest).map fun (chars, rest) => (char :: chars, rest) := by
  rw [bracedFrom]
  split
  · next hnext => rw [hnext]
  · next hnext => rw [hnext]

theorem bracedFrom_of_next {verbose : Bool} {input rest : List Char} {char : Char}
    (h : next verbose input = some (char, rest)) :
    bracedFrom verbose input =
      if char = '\x7d' then some ([], rest)
      else (bracedFrom verbose rest).map fun (chars, rest) => (char :: chars, rest) := by
  rw [bracedFrom_eq, h]

theorem stable_braced (verbose : Bool) : Stable (braced verbose) := by
  intro input chars rest h more
  rw [braced] at h ⊢
  fun_induction bracedFrom verbose input generalizing chars with
  | case1 => cases h
  | case2 input after hnext =>
      cases h
      rw [bracedFrom_of_next (stable_next verbose hnext more), if_pos rfl]
  | case3 input char after hnext hchar ih =>
      obtain ⟨⟨others, left⟩, hothers, heq⟩ := Option.map_eq_some_iff.mp h
      cases heq
      rw [bracedFrom_of_next (stable_next verbose hnext more), if_neg hchar, ih hothers,
        Option.map_some]

theorem stable_counted (verbose : Bool) (count : Nat) : Stable (counted verbose count) := by
  induction count with
  | zero => exact .pure []
  | succ count ih => exact (stable_next verbose).bind fun _ => ih.bind fun _ => .pure _

theorem stable_readCodePoint (verbose : Bool) (width : Nat) :
    Stable (readCodePoint verbose width) := by
  refine (stable_look verbose).bind fun first => ?_
  split
  · exact (stable_next verbose).bind fun _ => (stable_braced verbose).bind fun _ =>
      (Stable.lift _).bind fun _ => .pure _
  · exact (stable_counted verbose width).bind fun _ => (Stable.lift _).bind fun _ => .pure _

/-- A brace that follows may be part of what an edge is written by. -/
theorem readEdge_append {verbose : Bool} {input rest more : List Char} {item : Expression}
    (h : readEdge verbose input = some (item, rest))
    (hmore : rest = [] → more.head? ≠ some '\x7b') :
    readEdge verbose (input ++ more) = some (item, rest ++ more) := by
  cases input with
  | nil =>
      cases h
      rw [List.nil_append]
      unfold readEdge
      split
      · exact absurd rfl (hmore rfl)
      · rfl
  | cons first body =>
      unfold readEdge at h
      split at h
      · next body' heq =>
          cases heq
          split at h
          · cases h
          · next start left hnext =>
              rw [List.cons_append, readEdge]
              simp only [stable_next verbose hnext more]
              split at h
              · next hstart =>
                  obtain ⟨⟨name, left⟩, hname, h⟩ := Option.bind_eq_some_iff.mp h
                  obtain ⟨edge, hedge, heq⟩ := Option.bind_eq_some_iff.mp h
                  cases heq
                  simp [hstart, stable_braced verbose hname more, hedge]
              · next hstart =>
                  cases h
                  rw [if_neg hstart]
                  rfl
      · next hbrace =>
          cases h
          unfold readEdge
          split
          · next heq =>
              obtain ⟨rfl, -⟩ := List.cons.inj heq
              exact absurd rfl (hbrace body)
          · rfl

section

variable [UnicodeClasses]

theorem stable_readClass (verbose negated : Bool) : Stable (readClass verbose negated) := by
  refine (stable_next verbose).bind fun first => ?_
  split
  · exact (stable_braced verbose).bind fun _ => (Stable.lift _).bind fun _ => .pure _
  · split
    · intro input item rest h
      cases h
    · exact (Stable.lift _).bind fun _ => .pure _

theorem readEscape_append {verbose : Bool} {input rest more : List Char} {item : Expression}
    (h : readEscape verbose input = some (item, rest))
    (hmore : rest = [] → more.head? ≠ some '\x7b') :
    readEscape verbose (input ++ more) = some (item, rest ++ more) := by
  obtain ⟨letter, left, hletter, hrest⟩ := bind_eq_some_iff.mp h
  refine bind_eq_some_iff.mpr ⟨letter, left ++ more, stable_next false hletter more, ?_⟩
  unfold readEscaped at hrest ⊢
  split at hrest
  · exact stable_readCodePoint verbose 2 hrest more
  · exact stable_readCodePoint verbose 4 hrest more
  · exact stable_readCodePoint verbose 8 hrest more
  · exact stable_readClass verbose false hrest more
  · exact stable_readClass verbose true hrest more
  · exact readEdge_append hrest hmore
  · split at hrest
    · next hpunctuation =>
        rw [if_pos hpunctuation]
        exact Stable.pure _ hrest more
    · next hpunctuation =>
        rw [if_neg hpunctuation]
        exact Stable.lift _ hrest more

end

namespace ClassReader

theorem not_mem_of_namedItem? {negated : Bool} {name : List Char} {item : ClassItem}
    (h : namedItem? negated name = some item) : ']' ∉ name := by
  have hnames : ∀ entry ∈ namedSets, ']' ∉ entry.1.toList := by decide
  obtain ⟨ranges, hlookup, -⟩ := Option.map_eq_some_iff.mp h
  obtain ⟨before, after, hsets, -⟩ := List.lookup_eq_some_iff.mp hlookup
  have hname := hnames (String.ofList name, ranges) (by simp [hsets])
  rwa [String.toList_ofList] at hname

theorem mem_splitName {written : List Char} (h : ']' ∈ written) : ']' ∈ (splitName written).2 := by
  unfold splitName
  split
  · simpa using h
  · exact h

theorem readNamed_eq_some_iff {input rest : List Char} {item : ClassItem} :
    readNamed input = some (item, rest) ↔
      ∃ body, input = ':' :: body ∧ body.dropWhile (· != ':') = ':' :: ']' :: rest ∧
        namedItem? (splitName (body.takeWhile (· != ':'))).1
          (splitName (body.takeWhile (· != ':'))).2 = some item := by
  constructor
  · intro h
    unfold readNamed at h
    split at h
    · next body =>
        split at h
        · next hdrop =>
            obtain ⟨named, hnamed, heq⟩ := Option.map_eq_some_iff.mp h
            cases heq
            exact ⟨body, rfl, hdrop, hnamed⟩
        · cases h
    · cases h
  · intro ⟨body, hinput, hdrop, hitem⟩
    rw [hinput, readNamed]
    simp only [hdrop, hitem, Option.map_some]

theorem stable_readNamed : Stable readNamed := by
  intro input item rest h more
  obtain ⟨body, rfl, hdrop, hitem⟩ := readNamed_eq_some_iff.mp h
  refine readNamed_eq_some_iff.mpr ⟨body ++ more, rfl, ?_, ?_⟩
  · exact dropWhile_append_of_dropWhile hdrop more
  · rwa [takeWhile_append_of_dropWhile hdrop]

/-- No named set starts where a bracket closes before the name could end: the name would have
that bracket in it. -/
theorem readNamed_append_eq_none {input : List Char} (h : readNamed input = none)
    (hclose : ']' ∈ input) (more : List Char) : readNamed (input ++ more) = none := by
  refine Option.eq_none_iff_forall_not_mem.mpr fun (item, rest) hread => ?_
  obtain ⟨body', heq, hdrop, hitem⟩ := readNamed_eq_some_iff.mp hread
  have hname : ']' ∉ body'.takeWhile (· != ':') :=
    fun hmem => not_mem_of_namedItem? hitem (mem_splitName hmem)
  cases input with
  | nil => cases hclose
  | cons first body =>
      rw [List.cons_append] at heq
      obtain ⟨rfl, rfl⟩ := List.cons.inj heq
      have hbody : ']' ∈ body := by simpa using hclose
      rw [← List.takeWhile_append_dropWhile (p := (· != ':')) (l := body)] at hbody
      cases hafter : body.dropWhile (· != ':') with
      | nil =>
          rw [hafter, List.append_nil] at hbody
          exact hname (mem_takeWhile_append hbody more)
      | cons colon after =>
          rw [dropWhile_append_of_dropWhile hafter] at hdrop
          obtain ⟨rfl, hnext⟩ := List.cons.inj hdrop
          cases after with
          | nil =>
              rw [hafter] at hbody
              exact hname (mem_takeWhile_append (by simpa using hbody) more)
          | cons next after =>
              rw [List.cons_append] at hnext
              obtain ⟨rfl, -⟩ := List.cons.inj hnext
              rw [takeWhile_append_of_dropWhile hafter] at hitem
              have hagain := readNamed_eq_some_iff.mpr ⟨body, rfl, hafter, hitem⟩
              cases h.symm.trans hagain

theorem nextFrom_of_blank {input : List Char} (h : ∀ char ∈ input, Text.isBlank char = true)
    (inComment : Bool) : nextFrom true inComment input = none := by
  induction input generalizing inComment with
  | nil => cases inComment <;> rfl
  | cons first input ih =>
      obtain ⟨hfirst, hinput⟩ := List.forall_mem_cons.mp h
      cases inComment with
      | true => exact ih hinput _
      | false =>
          rw [nextFrom, if_pos (by rw [hfirst]; rfl)]
          exact ih hinput false

theorem next_dropWhile (input : List Char) :
    next true (input.dropWhile Text.isBlank) = next true input := by
  induction input with
  | nil => rfl
  | cons first input ih =>
      rw [List.dropWhile_cons]
      split
      · next hblank =>
          rw [ih]
          show nextFrom true false input = if true && Text.isBlank first then _ else _
          rw [hblank]
          rfl
      · rfl

theorem next_of_peek_eq_none {verbose : Bool} {input : List Char}
    (h : peek verbose input = none) : next verbose input = none := by
  unfold peek at h
  split at h
  · next hverbose =>
      rw [hverbose, ← next_dropWhile]
      split at h
      · next rest hdrop =>
          have hblank := List.dropWhile_eq_nil_iff.mp (List.head?_eq_none_iff.mp h)
          rw [hdrop]
          exact nextFrom_of_blank hblank true
      · rw [List.head?_eq_none_iff.mp h]
        rfl
  · rw [List.head?_eq_none_iff.mp h]
    cases verbose <;> rfl

theorem peek_append {verbose : Bool} {input : List Char} {seen : Char}
    (h : peek verbose input = some seen) (more : List Char) :
    peek verbose (input ++ more) = some seen := by
  have hscan {chars : List Char} (h : (chars.dropWhile Text.isBlank).head? = some seen) :
      ((chars ++ more).dropWhile Text.isBlank).head? = some seen := by
    obtain ⟨rest, hrest⟩ := List.head?_eq_some_iff.mp h
    rw [dropWhile_append_of_dropWhile hrest]
    rfl
  unfold peek at h ⊢
  split at h
  · next hverbose =>
      rw [if_pos hverbose]
      split at h
      · next rest hdrop =>
          rw [dropWhile_append_of_dropWhile hdrop]
          exact hscan h
      · next hhash =>
          obtain ⟨rest, hrest⟩ := List.head?_eq_some_iff.mp h
          rw [dropWhile_append_of_dropWhile hrest]
          split
          · next heq =>
              obtain ⟨rfl, -⟩ := List.cons.inj heq
              exact absurd hrest (hhash rest)
          · rfl
  · next hverbose =>
      obtain ⟨rest, rfl⟩ := List.head?_eq_some_iff.mp h
      rw [if_neg hverbose]
      rfl

theorem stable_rangeEnd? (verbose : Bool) : Stable (rangeEnd? verbose) := by
  intro input found rest h more
  unfold rangeEnd? at h ⊢
  split at h
  · cases h
  · next after hnext =>
      simp only [stable_next verbose hnext more]
      split at h
      · next hstop =>
          have hseen : peek verbose (after ++ more) = peek verbose after := by
            rcases hstop with hstop | hstop <;> rw [peek_append hstop, hstop]
          cases h
          rw [hseen, if_pos hstop]
      · next hstop =>
          obtain ⟨⟨char, left⟩, hchar, heq⟩ := Option.map_eq_some_iff.mp h
          cases heq
          have hseen : peek verbose (after ++ more) = peek verbose after := by
            cases hpeek : peek verbose after with
            | none => cases (next_of_peek_eq_none hpeek).symm.trans hchar
            | some seen => exact peek_append hpeek more
          rw [hseen, if_neg hstop, stable_next verbose hchar more, Option.map_some]
  · next other hhyphen hnext =>
      cases h
      obtain ⟨char, left⟩ := other
      simp only [stable_next verbose hnext more]
      split
      · next heq => cases heq
      · next heq =>
          cases heq
          exact absurd rfl (hhyphen left)
      · rfl

theorem ne_nil_of_rangeEnd? {verbose : Bool} {input rest : List Char} {found : Option Char}
    (h : rangeEnd? verbose input = some (found, rest)) : input ≠ [] := by
  intro hnil
  cases hnil
  cases h

theorem hyphensFrom_of_next {verbose : Bool} {input rest : List Char} {char : Char}
    (h : next verbose input = some (char, rest)) :
    hyphensFrom verbose input =
      if char = '-' then (hyphensFrom verbose rest).map fun (count, rest) => (count + 1, rest)
      else some (0, input) := by
  rw [hyphensFrom]
  split
  · next hnone => cases h.symm.trans hnone
  · next hsome =>
      cases h.symm.trans hsome
      rfl

theorem stable_hyphens (verbose : Bool) : Stable (hyphens verbose) := by
  intro input count rest h more
  rw [hyphens] at h ⊢
  fun_induction hyphensFrom verbose input generalizing count with
  | case1 => cases h
  | case2 input after hnext ih =>
      obtain ⟨⟨others, left⟩, hothers, heq⟩ := Option.map_eq_some_iff.mp h
      cases heq
      rw [hyphensFrom_of_next (stable_next verbose hnext more), if_pos rfl, ih hothers,
        Option.map_some]
  | case3 input char after hnext hchar =>
      cases h
      rw [hyphensFrom_of_next (stable_next verbose hnext more), if_neg hchar]

theorem stable_readFirst (verbose negated : Bool) : Stable (readFirst verbose negated) := by
  refine (stable_hyphens verbose).bind fun count => (stable_look verbose).bind fun first => ?_
  split
  · exact (stable_next verbose).bind fun _ => .pure _
  · exact .pure _

theorem stable_readOpening (verbose : Bool) : Stable (readOpening verbose) := by
  refine (stable_look verbose).bind fun first => ?_
  split
  · exact (stable_next verbose).bind fun _ => stable_readFirst verbose true
  · exact stable_readFirst verbose false

theorem stable_readOperator (first : Char) : Stable (readOperator first) := by
  intro input operator rest h more
  cases input with
  | nil => cases h
  | cons second input =>
      rw [readOperator] at h
      rw [List.cons_append, readOperator]
      split at h
      · next hsame =>
          obtain ⟨found, hfound, heq⟩ := Option.map_eq_some_iff.mp h
          cases heq
          rw [if_pos hsame, hfound, Option.map_some]
      · cases h

theorem readOperator_append_eq_none {first : Char} {input : List Char}
    (h : readOperator first input = none) (hne : input ≠ []) (more : List Char) :
    readOperator first (input ++ more) = none := by
  cases input with
  | nil => exact absurd rfl hne
  | cons second input =>
      rw [readOperator] at h
      rw [List.cons_append, readOperator]
      split at h
      · next hsame =>
          rw [if_pos hsame, Option.map_eq_none_iff.mpr (Option.map_eq_none_iff.mp h)]
      · next hother => rw [if_neg hother]

section

variable [UnicodeClasses]

theorem readMember_append {verbose : Bool} {first : Char} {input rest more : List Char}
    {item : Expression} (h : readMember verbose first input = some (item, rest))
    (hrest : rest ≠ []) : readMember verbose first (input ++ more) = some (item, rest ++ more) := by
  unfold readMember at h ⊢
  split at h
  · next hescape =>
      rw [if_pos hescape]
      exact readEscape_append h fun hnil => absurd hnil hrest
  · next hescape =>
      rw [if_neg hescape]
      exact Stable.pure _ h more

theorem readItem_append {verbose : Bool} {first : Char} {input rest more : List Char}
    {item : ClassItem} (h : readItem verbose first input = some (item, rest))
    (hrest : rest ≠ []) : readItem verbose first (input ++ more) = some (item, rest ++ more) := by
  obtain ⟨start, left, hstart, h⟩ := bind_eq_some_iff.mp h
  obtain ⟨found, after, hfound, h⟩ := bind_eq_some_iff.mp h
  refine bind_eq_some_iff.mpr ⟨start, left ++ more,
    readMember_append hstart (ne_nil_of_rangeEnd? hfound), ?_⟩
  refine bind_eq_some_iff.mpr ⟨found, after ++ more, stable_rangeEnd? verbose hfound more, ?_⟩
  cases found with
  | some second =>
      obtain ⟨last, left, hlast, hitem⟩ := bind_eq_some_iff.mp h
      have hleft : left = rest := (lift_eq_some_iff.mp hitem).2
      exact bind_eq_some_iff.mpr ⟨last, left ++ more, readMember_append hlast (hleft ▸ hrest),
        Stable.lift _ hitem more⟩
  | none => exact Stable.lift _ h more

theorem readBehind_close (verbose : Bool) (input : List Char) :
    readBehind verbose ']' input = some (.closing, input) := by
  have hoperator : readOperator ']' input = none := by
    cases input with
    | nil => rfl
    | cons second input =>
        rw [readOperator]
        split <;> rfl
  exact orElse_eq_some_iff.mpr (.inr ⟨map_eq_none_iff.mpr hoperator, rfl⟩)

theorem eq_of_readBehind_closing {verbose : Bool} {first : Char} {input rest : List Char}
    (h : readBehind verbose first input = some (.closing, rest)) : first = ']' := by
  by_contra hclose
  rcases orElse_eq_some_iff.mp h with h | ⟨-, h⟩
  · obtain ⟨operator, -, heq⟩ := map_eq_some_iff.mp h
    cases heq
  rw [if_neg hclose] at h
  split at h
  · rcases orElse_eq_some_iff.mp h with h | ⟨-, h⟩
    · obtain ⟨item, -, heq⟩ := map_eq_some_iff.mp h
      cases heq
    · obtain ⟨frame, -, heq⟩ := map_eq_some_iff.mp h
      cases heq
  · obtain ⟨item, -, heq⟩ := map_eq_some_iff.mp h
    cases heq

/-- Every part but a closing bracket has one behind it, which bounds what it is read from. -/
theorem readBehind_append {verbose : Bool} {first : Char} {input rest : List Char} {part : Part}
    (h : readBehind verbose first input = some (part, rest))
    (hrest : part ≠ .closing → ']' ∈ rest) (more : List Char) :
    readBehind verbose first (input ++ more) = some (part, rest ++ more) := by
  by_cases hclose : first = ']'
  · subst hclose
    rw [readBehind_close] at h ⊢
    cases h
    rfl
  rcases orElse_eq_some_iff.mp h with hoperator | ⟨hoperator, hbehind⟩
  · exact orElse_eq_some_iff.mpr (.inl ((stable_readOperator first).map _ hoperator more))
  · rw [if_neg hclose] at hbehind
    have hpart : part ≠ .closing := by
      intro heq
      exact hclose (eq_of_readBehind_closing (heq ▸ h))
    have hinput : ']' ∈ input := (leavesSuffix_readBehind verbose first h).mem (hrest hpart)
    refine orElse_eq_some_iff.mpr (.inr ⟨?_, ?_⟩)
    · exact map_eq_none_iff.mpr
        (readOperator_append_eq_none (map_eq_none_iff.mp hoperator) (List.ne_nil_of_mem hinput) more)
    rw [if_neg hclose]
    split at hbehind
    · next hbracket =>
        rw [if_pos hbracket]
        rcases orElse_eq_some_iff.mp hbehind with hnamed | ⟨hnamed, hopening⟩
        · exact orElse_eq_some_iff.mpr (.inl (stable_readNamed.map _ hnamed more))
        · refine orElse_eq_some_iff.mpr (.inr ⟨?_, ?_⟩)
          · exact map_eq_none_iff.mpr
              (readNamed_append_eq_none (map_eq_none_iff.mp hnamed) hinput more)
          · exact (stable_readOpening verbose).map _ hopening more
    · next hbracket =>
        rw [if_neg hbracket]
        obtain ⟨item, hitem, heq⟩ := map_eq_some_iff.mp hbehind
        have hne : rest ≠ [] := List.ne_nil_of_mem (hrest hpart)
        exact map_eq_some_iff.mpr ⟨item, readItem_append hitem hne, heq⟩

theorem readPart_append {verbose : Bool} {input rest : List Char} {part : Part}
    (h : readPart verbose input = some (part, rest)) (hrest : part ≠ .closing → ']' ∈ rest)
    (more : List Char) : readPart verbose (input ++ more) = some (part, rest ++ more) := by
  obtain ⟨first, left, hfirst, hbehind⟩ := bind_eq_some_iff.mp h
  exact bind_eq_some_iff.mpr ⟨first, left ++ more, stable_next verbose hfirst more,
    readBehind_append hbehind hrest more⟩

theorem readFrames_of_part {verbose : Bool} {input rest : List Char} {part : Part}
    (h : readPart verbose input = some (part, rest)) (frame : Frame) (enclosing : List Frame) :
    readFrames verbose frame enclosing input =
      match part, enclosing with
      | .operator operator, enclosing =>
          readFrames verbose (frame.operate operator) enclosing rest
      | .item item, enclosing => readFrames verbose (frame.add item) enclosing rest
      | .opening inner, enclosing => readFrames verbose inner (frame :: enclosing) rest
      | .closing, [] => some (frame.close, rest)
      | .closing, outer :: enclosing =>
          readFrames verbose (outer.add frame.close) enclosing rest := by
  rw [readFrames]
  split
  · next hnone => cases h.symm.trans hnone
  all_goals
    next hsome =>
      cases h.symm.trans hsome
      first | rfl | (cases enclosing <;> rfl)

theorem mem_of_readFrames {verbose : Bool} {frame : Frame} {enclosing : List Frame}
    {input rest : List Char} {item : ClassItem}
    (h : readFrames verbose frame enclosing input = some (item, rest)) : ']' ∈ input := by
  have hclosing {input left : List Char}
      (h : readPart verbose input = some (.closing, left)) : ']' ∈ input := by
    obtain ⟨first, middle, hfirst, hbehind⟩ := bind_eq_some_iff.mp h
    obtain rfl := eq_of_readBehind_closing hbehind
    exact (suffix_of_next hfirst).mem List.mem_cons_self
  fun_induction readFrames verbose frame enclosing input with
  | case1 => cases h
  | case2 _ _ _ _ _ hread ih | case3 _ _ _ _ _ hread ih | case4 _ _ _ _ _ hread ih =>
      exact (leavesSuffix_readPart verbose hread).mem (ih h)
  | case5 _ _ _ hread => exact hclosing hread
  | case6 _ _ _ hread _ _ ih => exact (leavesSuffix_readPart verbose hread).mem (ih h)

theorem readFrames_append {verbose : Bool} {frame : Frame} {enclosing : List Frame}
    {input rest : List Char} {item : ClassItem}
    (h : readFrames verbose frame enclosing input = some (item, rest)) (more : List Char) :
    readFrames verbose frame enclosing (input ++ more) = some (item, rest ++ more) := by
  fun_induction readFrames verbose frame enclosing input with
  | case1 => cases h
  | case2 _ _ _ _ _ hread ih | case3 _ _ _ _ _ hread ih | case4 _ _ _ _ _ hread ih =>
      rw [readFrames_of_part (readPart_append hread (fun _ => mem_of_readFrames h) more)]
      exact ih h
  | case5 _ _ _ hread =>
      cases h
      rw [readFrames_of_part (readPart_append hread (absurd rfl) more)]
  | case6 _ _ _ hread _ _ ih =>
      rw [readFrames_of_part (readPart_append hread (absurd rfl) more)]
      exact ih h

theorem stable_read (verbose : Bool) : Stable (read verbose) :=
  (stable_readOpening verbose).bind fun _ _ _ _ h => readFrames_append h

end

end ClassReader

namespace GroupReader

theorem stable_readName : Stable readName := by
  intro input name rest h more
  unfold readName at h
  split at h
  · next angle left hdrop =>
      rw [readName]
      simp only [dropWhile_append_of_dropWhile hdrop, takeWhile_append_of_dropWhile hdrop] at h ⊢
      split at h
      · next hname =>
          cases h
          rw [if_pos hname]
      · cases h
  · cases h

theorem stable_readFlags : Stable readFlags := by
  intro input lexeme rest h more
  unfold readFlags at h
  simp only at h
  split at h
  · next hdrop =>
      obtain ⟨changes, hchanges, heq⟩ := Option.map_eq_some_iff.mp h
      cases heq
      rw [readFlags]
      simp only [dropWhile_append_of_dropWhile hdrop, takeWhile_append_of_dropWhile hdrop,
        hchanges, Option.map_some]
  · next closing left hcolon hdrop =>
      split at h
      · cases h
      · next hwritten =>
          obtain ⟨changes, hchanges, heq⟩ := Option.map_eq_some_iff.mp h
          cases heq
          rw [readFlags]
          simp only [dropWhile_append_of_dropWhile hdrop, takeWhile_append_of_dropWhile hdrop,
            hchanges, if_neg hwritten, Option.map_some]
  · cases h

theorem readMarked_of_name {input rest : List Char} {name : String}
    (h : readName input = some (name, rest)) :
    readMarked ('P' :: '<' :: input) = some (.openGroup (.named name), rest) ∧
      readMarked ('<' :: input) = some (.openGroup (.named name), rest) := by
  rw [readMarked, readMarked, h]
  exact ⟨rfl, rfl⟩

def MarksName (input : List Char) : Prop :=
  ∃ rest, input = 'P' :: '<' :: rest ∨ input = '<' :: rest

theorem readMarked_of_flags {input : List Char} (h : ¬ MarksName input) :
    readMarked input = readFlags input :=
  readMarked.eq_3 input (fun rest heq => h ⟨rest, .inl heq⟩) fun rest heq => h ⟨rest, .inr heq⟩

theorem stable_readMarked : Stable readMarked := by
  intro input lexeme rest h more
  by_cases hname : MarksName input
  · obtain ⟨name, rfl | rfl⟩ := hname
    all_goals
      obtain ⟨⟨name, left⟩, hread, heq⟩ := Option.map_eq_some_iff.mp h
      cases heq
    · exact (readMarked_of_name (stable_readName hread more)).1
    · exact (readMarked_of_name (stable_readName hread more)).2
  · rw [readMarked_of_flags hname] at h
    have hlonger : ¬ MarksName (input ++ more) := by
      intro ⟨left, heq⟩
      match input with
      | [] => cases h
      | [first] =>
          rcases heq with heq | heq
          · cases heq
            cases h
          · cases heq
            exact hname ⟨[], .inr rfl⟩
      | first :: second :: input =>
          rcases heq with heq | heq
          · cases heq
            exact hname ⟨input, .inl rfl⟩
          · cases heq
            exact hname ⟨second :: input, .inr rfl⟩
    rw [readMarked_of_flags hlonger]
    exact stable_readFlags h more

end GroupReader

theorem CountReader.stable_read (verbose : Bool) : Stable (CountReader.read verbose) :=
  (stable_braced verbose).bind fun _ => .lift _

end Lexeme

end DocMarkup
