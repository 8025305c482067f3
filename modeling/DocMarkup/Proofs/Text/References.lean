import Mathlib.Data.List.TakeWhile
import DocMarkup.Text.Escape

/-!
References in texts that are escaped in parts.

Whether an ampersand is kept depends on what follows it. So parts that are escaped on their own
make up the escaped text if for each ampersand it makes no difference where its part ends.
-/

namespace DocMarkup.Text

theorem startsReference_cut {body : List Char} (h : ';' ∉ body) (rest : List Char) :
    startsReference (body ++ ';' :: rest) = isReferenceBody body := by
  have hchars : ∀ char ∈ body, (char != ';') = true := by
    intro char hmem
    rw [bne_iff_ne]
    rintro rfl
    exact h hmem
  have htake : (body ++ ';' :: rest).takeWhile (· != ';') = body := by
    rw [List.takeWhile_append_of_pos hchars]
    simp
  have hdrop : (body ++ ';' :: rest).dropWhile (· != ';') = ';' :: rest := by
    rw [List.dropWhile_append_of_pos hchars]
    rfl
  rw [startsReference, reference?, hdrop]
  simp only [htake]
  split <;> simp_all

theorem startsReference_of_not_mem {chars : List Char} (h : ';' ∉ chars) :
    startsReference chars = false := by
  have hdrop : chars.dropWhile (· != ';') = [] := by
    rw [List.dropWhile_eq_nil_iff]
    intro char hmem
    rw [bne_iff_ne]
    rintro rfl
    exact h hmem
  rw [startsReference, reference?, hdrop]
  rfl

theorem startsReference_append {first : List Char} (h : ';' ∈ first) (second : List Char) :
    startsReference (first ++ second) = startsReference first := by
  obtain ⟨body, rest, rfl, hbody⟩ := List.eq_append_cons_of_mem h
  rw [List.append_assoc, List.cons_append, startsReference_cut hbody, startsReference_cut hbody]

/-- What stands between the ampersand and the semicolon of `&name;`, `&#169;` and `&#xA9;`. -/
inductive ReferenceBody : List Char → Prop
  | name {first : Char} {rest : List Char} (hfirst : first.isAlpha = true)
      (hrest : ∀ char ∈ rest, char.isAlphanum = true) : ReferenceBody (first :: rest)
  | decimal {digits : List Char} (hdigits : digits ≠ [])
      (hall : ∀ digit ∈ digits, digit.isDigit = true) : ReferenceBody ('#' :: digits)
  | hexadecimal {marker : Char} {digits : List Char} (hmarker : marker = 'x' ∨ marker = 'X')
      (hdigits : digits ≠ []) (hall : ∀ digit ∈ digits, isHexDigit digit = true) :
      ReferenceBody ('#' :: marker :: digits)

theorem isReferenceBody_iff {body : List Char} :
    isReferenceBody body = true ↔ ReferenceBody body := by
  constructor
  · intro h
    unfold isReferenceBody at h
    split at h <;> simp only [Bool.and_eq_true, Bool.not_eq_true', List.isEmpty_eq_false_iff,
      List.all_eq_true, Bool.false_eq_true] at h
    · exact .hexadecimal (.inl rfl) h.1 h.2
    · exact .hexadecimal (.inr rfl) h.1 h.2
    · exact .decimal h.1 h.2
    · exact .name h.1 h.2
  · intro h
    cases h with
    | @name first rest hfirst hrest =>
        have hhash : first ≠ '#' := by
          rintro rfl
          exact absurd hfirst (by decide)
        simp_all [isReferenceBody]
    | @decimal digits hdigits hall =>
        -- A marker in the place of the first digit would make the number hexadecimal.
        obtain ⟨digit, digits, rfl⟩ := List.exists_cons_of_ne_nil hdigits
        have hmarker : digit ≠ 'x' ∧ digit ≠ 'X' := by
          have hdigit := hall digit List.mem_cons_self
          constructor <;> rintro rfl <;> exact absurd hdigit (by decide)
        simp_all [isReferenceBody]
    | hexadecimal hmarker hdigits hall =>
        rcases hmarker with rfl | rfl <;> simp_all [isReferenceBody]

theorem isReferenceBody_cases {body : List Char} (h : isReferenceBody body = true) :
    (∃ char rest, body = '#' :: char :: rest ∧ char.isAlphanum = true) ∨
      body ≠ [] ∧ ∀ char ∈ body, char.isAlphanum = true := by
  cases isReferenceBody_iff.mp h with
  | @name first rest hfirst hrest =>
      have hchar : first.isAlphanum = true := by simp [Char.isAlphanum, hfirst]
      exact .inr ⟨List.cons_ne_nil _ _, List.forall_mem_cons.mpr ⟨hchar, hrest⟩⟩
  | decimal hdigits hall =>
      obtain ⟨digit, digits, rfl⟩ := List.exists_cons_of_ne_nil hdigits
      exact .inl ⟨digit, digits, rfl, by simp [Char.isAlphanum, hall digit List.mem_cons_self]⟩
  | @hexadecimal marker digits hmarker _ _ =>
      exact .inl ⟨marker, digits, rfl, by rcases hmarker with rfl | rfl <;> rfl⟩

theorem exists_of_numeric {rest : List Char} (h : startsReference ('#' :: rest) = true) :
    ∃ char more, rest = char :: more ∧ char.isAlphanum = true := by
  by_cases hmem : ';' ∈ '#' :: rest
  · obtain ⟨body, after, heq, hbody⟩ := List.eq_append_cons_of_mem hmem
    rw [heq, startsReference_cut hbody] at h
    obtain ⟨char, more, rfl, hchar⟩ | ⟨hne, hall⟩ := isReferenceBody_cases h
    · exact ⟨char, more ++ ';' :: after, (List.cons.inj heq).2, hchar⟩
    · obtain ⟨first, body, rfl⟩ := List.exists_cons_of_ne_nil hne
      obtain ⟨rfl, -⟩ := List.cons.inj heq
      exact absurd (hall '#' List.mem_cons_self) (by decide)
  · rw [startsReference_of_not_mem hmem] at h
    cases h

/-- Whether the text after an ampersand completes a reference that is no number. -/
def startsNamed (chars : List Char) : Bool :=
  startsReference chars && chars.head? != some '#'

/-- The text has a reference with the number of a character in it, `&#169;` or `&#xA9;`. -/
def HasNumeric (chars : List Char) : Prop :=
  ∃ before after, chars = before ++ '&' :: '#' :: after ∧ startsReference ('#' :: after) = true

/-- No name of a reference goes on into the text or over it. -/
structure Interrupts (text : List Char) : Prop where
  semicolon : ';' ∉ text
  stops : ∃ char ∈ text, char.isAlphanum = false

theorem Interrupts.not_named {text : List Char} (h : Interrupts text) {first : List Char}
    (hfirst : ';' ∉ first) (rest : List Char) :
    startsNamed (first ++ (text ++ rest)) = false := by
  obtain ⟨hsemicolon, char, hmem, hchar⟩ := h
  by_cases hrest : ';' ∈ rest
  · obtain ⟨before, after, rfl, hbefore⟩ := List.eq_append_cons_of_mem hrest
    have hbody : ';' ∉ first ++ (text ++ before) := by simp [hfirst, hsemicolon, hbefore]
    have hwhole : first ++ (text ++ (before ++ ';' :: after)) =
        first ++ (text ++ before) ++ ';' :: after := by simp
    rw [startsNamed, hwhole, startsReference_cut hbody]
    cases hreference : isReferenceBody (first ++ (text ++ before)) with
    | false => rfl
    | true =>
        obtain ⟨second, more, heq, -⟩ | ⟨-, hall⟩ := isReferenceBody_cases hreference
        · simp [heq]
        · have hinside : char ∈ first ++ (text ++ before) := by simp [hmem]
          rw [hall char hinside] at hchar
          cases hchar
  · have hnone : ';' ∉ first ++ (text ++ rest) := by simp [hfirst, hsemicolon, hrest]
    rw [startsNamed, startsReference_of_not_mem hnone, Bool.false_and]

/-- Before an interruption there are the references that there are in the whole text, if they
are by name. -/
theorem startsNamed_append {first second : List Char}
    (hfirst : startsReference first = true → first.head? ≠ some '#')
    (hsecond : second = [] ∨ ∃ text rest, second = text ++ rest ∧ Interrupts text) :
    startsNamed (first ++ second) = startsReference first := by
  by_cases hmem : ';' ∈ first
  · have hhead : (first ++ second).head? = first.head? := by
      cases first with
      | nil => cases hmem
      | cons => rfl
    rw [startsNamed, startsReference_append hmem, hhead]
    cases hreference : startsReference first with
    | false => rfl
    | true => simpa using hfirst hreference
  · rw [startsReference_of_not_mem hmem]
    obtain rfl | ⟨text, rest, rfl, htext⟩ := hsecond
    · rw [List.append_nil, startsNamed, startsReference_of_not_mem hmem, Bool.false_and]
    · exact htext.not_named hmem rest

def escapeChar (kept : Bool) (char : Char) : List Char :=
  if char = '&' then if kept then ['&'] else "&amp;".toList
  else if char = '<' then "&lt;".toList
  else if char = '>' then "&gt;".toList
  else [char]

/-- Escapes a text in which the ampersands before certain texts are kept. -/
def escapeKeeping (keeps : List Char → Bool) : List Char → List Char
  | [] => []
  | char :: rest => escapeChar (keeps rest) char ++ escapeKeeping keeps rest

theorem escapeChars_eq (chars : List Char) :
    escapeChars chars = escapeKeeping startsReference chars := by
  induction chars with
  | nil => rfl
  | cons char rest ih =>
      rw [escapeChars, escapeKeeping, escapeChar, ih]
      split
      · split <;> rfl
      · split
        · rfl
        · split <;> rfl

theorem escapeChar_of_ne {char : Char} (h : char ≠ '&') (kept other : Bool) :
    escapeChar kept char = escapeChar other char := by
  rw [escapeChar, escapeChar, if_neg h, if_neg h]

theorem length_escapeChar_le {kept other : Bool} (h : kept = true → other = true) (char : Char) :
    (escapeChar other char).length ≤ (escapeChar kept char).length := by
  by_cases hamp : char = '&'
  · rw [hamp]
    revert h
    cases kept <;> cases other <;> decide
  · exact Nat.le_of_eq (congrArg _ (escapeChar_of_ne hamp other kept))

section

variable {keeps other : List Char → Bool}

theorem escapeKeeping_append {first second : List Char}
    (h : ∀ before after, first = before ++ '&' :: after →
      keeps (after ++ second) = other after) :
    escapeKeeping keeps (first ++ second) =
      escapeKeeping other first ++ escapeKeeping keeps second := by
  induction first with
  | nil => rfl
  | cons char rest ih =>
      have hrest := ih fun before after heq => h (char :: before) after (congrArg _ heq)
      have hchar : escapeChar (keeps (rest ++ second)) char = escapeChar (other rest) char := by
        by_cases hamp : char = '&'
        · rw [h [] rest (congrArg (· :: rest) hamp)]
        · exact escapeChar_of_ne hamp _ _
      rw [List.cons_append, escapeKeeping, escapeKeeping, hchar, hrest, List.append_assoc]

theorem length_escapeKeeping (h : ∀ rest, keeps rest = true → other rest = true)
    (chars : List Char) :
    (escapeKeeping other chars).length ≤ (escapeKeeping keeps chars).length ∧
      ∀ before after, chars = before ++ '&' :: after → keeps after = false → other after = true →
        (escapeKeeping other chars).length < (escapeKeeping keeps chars).length := by
  induction chars with
  | nil =>
      refine ⟨Nat.le_refl _, fun before after heq => ?_⟩
      simp at heq
  | cons char rest ih =>
      have hchar := length_escapeChar_le (h rest) char
      simp only [escapeKeeping, List.length_append]
      refine ⟨Nat.add_le_add hchar ih.1, fun before after heq hkeeps hother => ?_⟩
      cases before with
      | nil =>
          obtain ⟨rfl, rfl⟩ := List.cons.inj heq
          have hlt : (escapeChar true '&').length < (escapeChar false '&').length := by decide
          rw [hkeeps, hother]
          exact Nat.add_lt_add_of_lt_of_le hlt ih.1
      | cons first before =>
          exact Nat.add_lt_add_of_le_of_lt hchar
            (ih.2 before after (List.cons.inj heq).2 hkeeps hother)

/-- If one rule keeps all that the other one does, both give the same just where it does not
keep more. -/
theorem escapeKeeping_eq_iff (h : ∀ rest, keeps rest = true → other rest = true)
    (chars : List Char) :
    escapeKeeping keeps chars = escapeKeeping other chars ↔
      ∀ before after, chars = before ++ '&' :: after → other after = true →
        keeps after = true := by
  constructor
  · intro heq before after hchars hother
    cases hkeeps : keeps after with
    | true => rfl
    | false =>
        have hlt := (length_escapeKeeping h chars).2 before after hchars hkeeps hother
        rw [heq] at hlt
        exact absurd hlt (Nat.lt_irrefl _)
  · intro hsame
    have hagree : ∀ before after, chars = before ++ '&' :: after →
        keeps (after ++ []) = other after := by
      intro before after hchars
      rw [List.append_nil, Bool.eq_iff_iff]
      exact ⟨h after, hsame before after hchars⟩
    have happend := escapeKeeping_append hagree
    rw [List.append_nil] at happend
    rw [happend, escapeKeeping, List.append_nil]

end

theorem escapeNamed_eq_iff (chars : List Char) :
    escapeKeeping startsNamed chars = escapeChars chars ↔ ¬ HasNumeric chars := by
  have hnamed : ∀ rest, startsNamed rest = true → startsReference rest = true :=
    fun rest h => (Bool.and_eq_true_iff.mp h).1
  rw [escapeChars_eq, escapeKeeping_eq_iff hnamed]
  constructor
  · rintro h ⟨before, after, hchars, hreference⟩
    have hstarts := h before ('#' :: after) hchars hreference
    simp [startsNamed] at hstarts
  · intro h before after hchars hreference
    rw [startsNamed, hreference, Bool.true_and, bne_iff_ne]
    intro hhash
    obtain ⟨rest, rfl⟩ := List.head?_eq_some_iff.mp hhash
    exact h ⟨before, rest, hchars, hreference⟩

end DocMarkup.Text
