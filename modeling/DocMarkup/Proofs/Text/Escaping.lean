import DocMarkup.Proofs.Text.References

/-!
Escaped texts.

A text is escaped if nothing is left in it to escape: no angle bracket, and no ampersand but those
that start references. Escaping gives such texts and leaves them as they are. So does escaping for
attribute values, which have no quotes besides.
-/

namespace DocMarkup.Text

theorem angle_not_mem_escapeChars (chars : List Char) :
    '<' ∉ escapeChars chars ∧ '>' ∉ escapeChars chars := by
  induction chars with
  | nil => simp [escapeChars]
  | cons char rest ih =>
      obtain ⟨hless, hgreater⟩ := ih
      simp only [escapeChars]
      split
      · split <;> simp [hless, hgreater]
      · split
        · simp [hless, hgreater]
        · split
          · simp [hless, hgreater]
          · next hnotless hnotgreater =>
              simp [hless, hgreater, Ne.symm hnotless, Ne.symm hnotgreater]

theorem not_mem_escapeChars {chars : List Char} {char : Char} (hchar : char ∉ chars)
    (hmarkup : char ∉ "&amp;".toList ++ "&lt;".toList ++ "&gt;".toList) :
    char ∉ escapeChars chars := by
  simp only [List.mem_append, not_or] at hmarkup
  obtain ⟨⟨hamp, hless⟩, hgreater⟩ := hmarkup
  induction chars with
  | nil => exact List.not_mem_nil
  | cons first rest ih =>
      obtain ⟨hfirst, hrest⟩ := not_or.mp (List.mem_cons.not.mp hchar)
      rw [escapeChars]
      split
      · split
        · next heq _ => exact List.not_mem_cons_of_ne_of_not_mem (heq ▸ hfirst) (ih hrest)
        · exact List.not_mem_append hamp (ih hrest)
      · split
        · exact List.not_mem_append hless (ih hrest)
        · split
          · exact List.not_mem_append hgreater (ih hrest)
          · exact List.not_mem_cons_of_ne_of_not_mem hfirst (ih hrest)

theorem escapeChars_ne_nil {chars : List Char} (h : chars ≠ []) : escapeChars chars ≠ [] := by
  obtain ⟨char, rest, rfl⟩ := List.exists_cons_of_ne_nil h
  rw [escapeChars]
  split
  · split <;> simp
  · split
    · simp
    · split <;> simp

theorem not_mem_quoteChars {chars : List Char} {char : Char} (hchar : char ∉ chars)
    (hquot : char ∉ "&quot;".toList) : char ∉ quoteChars chars := by
  intro hmem
  obtain ⟨quoted, hquoted, hmem⟩ := List.mem_flatMap.mp hmem
  split at hmem
  · exact hquot hmem
  · cases List.mem_singleton.mp hmem
    exact hchar hquoted

theorem quote_not_mem_quoteChars (chars : List Char) : '"' ∉ quoteChars chars := by
  intro hmem
  obtain ⟨char, -, hmem⟩ := List.mem_flatMap.mp hmem
  split at hmem
  · exact absurd hmem (by decide)
  · next hchar => exact hchar (List.mem_singleton.mp hmem).symm

theorem quoteChars_eq_self {chars : List Char} (h : '"' ∉ chars) : quoteChars chars = chars := by
  induction chars with
  | nil => rfl
  | cons char rest ih =>
      obtain ⟨hchar, hrest⟩ := not_or.mp (List.mem_cons.not.mp h)
      rw [quoteChars, List.flatMap_cons, if_neg (Ne.symm hchar), ← quoteChars, ih hrest]
      rfl

theorem angle_not_mem_escapeValue (value : String) :
    '<' ∉ (escapeValue value).toList ∧ '>' ∉ (escapeValue value).toList := by
  obtain ⟨hless, hgreater⟩ := angle_not_mem_escapeChars value.toList
  rw [toList_escapeValue]
  exact ⟨not_mem_quoteChars hless (by decide), not_mem_quoteChars hgreater (by decide)⟩

/-- The text after an ampersand makes it the start of a reference. -/
def CompletesReference (chars : List Char) : Prop :=
  ∃ body rest, chars = body ++ ';' :: rest ∧ ReferenceBody body

theorem isAlphanum_of_isAlpha {char : Char} (h : char.isAlpha = true) :
    char.isAlphanum = true := by
  simp [Char.isAlphanum, h]

theorem isAlphanum_of_isHexDigit {char : Char} (h : isHexDigit char = true) :
    char.isAlphanum = true := by
  simp only [isHexDigit, Bool.or_eq_true, Bool.and_eq_true, decide_eq_true_eq] at h
  rcases h with (hdigit | ⟨hlow, hhigh⟩) | ⟨hlow, hhigh⟩
  · simp [Char.isAlphanum, hdigit]
  · have hlower : char.isLower = true := by
      show (decide ('a' ≤ char) && decide (char ≤ 'z')) = true
      rw [Bool.and_eq_true, decide_eq_true_eq, decide_eq_true_eq]
      exact ⟨hlow, Char.le_trans hhigh (by decide)⟩
    exact isAlphanum_of_isAlpha (Bool.or_eq_true_iff.mpr (.inr hlower))
  · have hupper : char.isUpper = true :=
      decide_eq_true ⟨hlow, Char.le_trans hhigh (by decide)⟩
    exact isAlphanum_of_isAlpha (Bool.or_eq_true_iff.mpr (.inl hupper))

namespace ReferenceBody

variable {body : List Char} {char : Char}

theorem of_mem (h : ReferenceBody body) (hmem : char ∈ body) :
    char = '#' ∨ char.isAlphanum = true := by
  cases h with
  | name hfirst hrest =>
      rcases List.mem_cons.mp hmem with rfl | hmem
      · exact .inr (isAlphanum_of_isAlpha hfirst)
      · exact .inr (hrest char hmem)
  | decimal _ hall =>
      rcases List.mem_cons.mp hmem with rfl | hmem
      · exact .inl rfl
      · exact .inr (by simp [Char.isAlphanum, hall char hmem])
  | hexadecimal hmarker _ hall =>
      rcases List.mem_cons.mp hmem with rfl | hmem
      · exact .inl rfl
      · rcases List.mem_cons.mp hmem with rfl | hmem
        · exact .inr (by rcases hmarker with rfl | rfl <;> rfl)
        · exact .inr (isAlphanum_of_isHexDigit (hall char hmem))

theorem not_mem (h : ReferenceBody body) (hchar : char.isAlphanum = false) (hhash : char ≠ '#') :
    char ∉ body := by
  intro hmem
  rcases h.of_mem hmem with heq | halphanum
  · exact hhash heq
  · exact Bool.false_ne_true (hchar.symm.trans halphanum)

end ReferenceBody

theorem startsReference_iff {chars : List Char} :
    startsReference chars = true ↔ CompletesReference chars := by
  constructor
  · intro h
    by_cases hmem : ';' ∈ chars
    · obtain ⟨body, rest, rfl, hbody⟩ := List.eq_append_cons_of_mem hmem
      rw [startsReference_cut hbody, isReferenceBody_iff] at h
      exact ⟨body, rest, rfl, h⟩
    · rw [startsReference_of_not_mem hmem] at h
      cases h
  · rintro ⟨body, rest, rfl, hbody⟩
    rw [startsReference_cut (hbody.not_mem (by decide) (by decide))]
    exact isReferenceBody_iff.mpr hbody

theorem startsReference_append_cons {char : Char} (halphanum : char.isAlphanum = false)
    (hhash : char ≠ '#') (hsemicolon : char ≠ ';') (first rest : List Char) :
    startsReference (first ++ char :: rest) = startsReference first := by
  by_cases hmem : ';' ∈ first
  · exact startsReference_append hmem _
  · rw [startsReference_of_not_mem hmem, ← Bool.not_eq_true, startsReference_iff]
    rintro ⟨body, after, heq, hbody⟩
    have hchar : char ∉ body := hbody.not_mem halphanum hhash
    rcases List.append_eq_append_iff.mp heq with ⟨more, rfl, hmore⟩ | ⟨more, rfl, hmore⟩
    · cases more with
      | nil => exact hsemicolon (List.cons.inj hmore).1
      | cons second more =>
          obtain ⟨rfl, -⟩ := List.cons.inj hmore
          exact hchar (by simp)
    · cases more with
      | nil => exact hsemicolon (List.cons.inj hmore).1.symm
      | cons second more =>
          obtain ⟨rfl, -⟩ := List.cons.inj hmore
          exact hmem (by simp)

/-- Nothing is left in the text to escape. -/
structure Escaped (chars : List Char) : Prop where
  less : '<' ∉ chars
  greater : '>' ∉ chars
  references : ∀ before after, chars = before ++ '&' :: after → CompletesReference after

theorem escaped_nil : Escaped [] where
  less := List.not_mem_nil
  greater := List.not_mem_nil
  references before after heq := by simp at heq

theorem escaped_cons_iff {char : Char} {rest : List Char} :
    Escaped (char :: rest) ↔
      (char ≠ '<' ∧ char ≠ '>' ∧ (char = '&' → CompletesReference rest)) ∧ Escaped rest := by
  constructor
  · intro h
    obtain ⟨hless, hrestless⟩ := not_or.mp (List.mem_cons.not.mp h.less)
    obtain ⟨hgreater, hrestgreater⟩ := not_or.mp (List.mem_cons.not.mp h.greater)
    refine ⟨⟨Ne.symm hless, Ne.symm hgreater, fun hamp => ?_⟩, hrestless, hrestgreater, ?_⟩
    · exact h.references [] rest (congrArg (· :: rest) hamp)
    · exact fun before after heq => h.references (char :: before) after (congrArg _ heq)
  · rintro ⟨⟨hless, hgreater, hamp⟩, h⟩
    refine ⟨List.mem_cons.not.mpr (not_or.mpr ⟨Ne.symm hless, h.less⟩),
      List.mem_cons.not.mpr (not_or.mpr ⟨Ne.symm hgreater, h.greater⟩), fun before after heq => ?_⟩
    cases before with
    | nil =>
        obtain ⟨rfl, rfl⟩ := List.cons.inj heq
        exact hamp rfl
    | cons first before => exact h.references before after (List.cons.inj heq).2

theorem Escaped.append_plain {first second : List Char} (h : Escaped second)
    (hfirst : ∀ char ∈ first, char ≠ '&' ∧ char ≠ '<' ∧ char ≠ '>') :
    Escaped (first ++ second) := by
  induction first with
  | nil => exact h
  | cons char rest ih =>
      obtain ⟨⟨hamp, hless, hgreater⟩, hrest⟩ := List.forall_mem_cons.mp hfirst
      exact escaped_cons_iff.mpr ⟨⟨hless, hgreater, fun heq => absurd heq hamp⟩, ih hrest⟩

theorem ReferenceBody.plain {body : List Char} (h : ReferenceBody body) :
    ∀ char ∈ body ++ [';'], char ≠ '&' ∧ char ≠ '<' ∧ char ≠ '>' := by
  intro char hmem
  rcases List.mem_append.mp hmem with hmem | hmem
  · refine ⟨?_, ?_, ?_⟩ <;> exact fun heq => h.not_mem (by decide) (by decide) (heq ▸ hmem)
  · cases List.mem_singleton.mp hmem
    decide

theorem Escaped.append_reference {rest : List Char} (h : Escaped rest) {body : List Char}
    (hbody : ReferenceBody body) : Escaped ('&' :: (body ++ ';' :: rest)) := by
  refine escaped_cons_iff.mpr ⟨⟨by decide, by decide, fun _ => ⟨body, rest, rfl, hbody⟩⟩, ?_⟩
  rw [List.append_cons]
  exact h.append_plain hbody.plain

theorem escapeChars_append_plain {first : List Char}
    (hfirst : ∀ char ∈ first, char ≠ '&' ∧ char ≠ '<' ∧ char ≠ '>') (second : List Char) :
    escapeChars (first ++ second) = first ++ escapeChars second := by
  induction first with
  | nil => rfl
  | cons char rest ih =>
      obtain ⟨⟨hamp, hless, hgreater⟩, hrest⟩ := List.forall_mem_cons.mp hfirst
      rw [List.cons_append, escapeChars, if_neg hamp, if_neg hless, if_neg hgreater, ih hrest]
      rfl

theorem CompletesReference.escapeChars {chars : List Char} (h : CompletesReference chars) :
    CompletesReference (escapeChars chars) := by
  obtain ⟨body, rest, rfl, hbody⟩ := h
  refine ⟨body, Text.escapeChars rest, ?_, hbody⟩
  rw [List.append_cons, escapeChars_append_plain hbody.plain, ← List.append_cons]

theorem CompletesReference.quoteChars {chars : List Char} (h : CompletesReference chars) :
    CompletesReference (quoteChars chars) := by
  obtain ⟨body, rest, rfl, hbody⟩ := h
  refine ⟨body, Text.quoteChars rest, ?_, hbody⟩
  have hquote : '"' ∉ body := hbody.not_mem (by decide) (by decide)
  rw [Text.quoteChars, List.flatMap_append, ← Text.quoteChars, quoteChars_eq_self hquote]
  rfl

/-- An ampersand stays where it starts a reference, and it still does so in the escaped text. All
else that is special becomes a reference. -/
theorem escaped_escapeChars (chars : List Char) : Escaped (escapeChars chars) := by
  have hamp : ReferenceBody "amp".toList := isReferenceBody_iff.mp (by decide)
  have hless : ReferenceBody "lt".toList := isReferenceBody_iff.mp (by decide)
  have hgreater : ReferenceBody "gt".toList := isReferenceBody_iff.mp (by decide)
  induction chars with
  | nil => exact escaped_nil
  | cons char rest ih =>
      rw [escapeChars]
      split
      · split
        · next hstarts =>
            have hcompletes := (startsReference_iff.mp hstarts).escapeChars
            exact escaped_cons_iff.mpr ⟨⟨by decide, by decide, fun _ => hcompletes⟩, ih⟩
        · exact ih.append_reference hamp
      · next hkept =>
          split
          · exact ih.append_reference hless
          · split
            · exact ih.append_reference hgreater
            · next hnotless hnotgreater =>
                exact escaped_cons_iff.mpr
                  ⟨⟨hnotless, hnotgreater, fun heq => absurd heq hkept⟩, ih⟩

theorem escapeChars_eq_self_iff {chars : List Char} :
    escapeChars chars = chars ↔ Escaped chars := by
  constructor
  · exact fun h => h ▸ escaped_escapeChars chars
  · intro h
    induction chars with
    | nil => rfl
    | cons char rest ih =>
        obtain ⟨⟨hless, hgreater, hamp⟩, hrest⟩ := escaped_cons_iff.mp h
        rw [escapeChars, if_neg hless, if_neg hgreater, ih hrest]
        split
        · next heq => rw [if_pos (startsReference_iff.mpr (hamp heq)), heq]
        · rfl

theorem Escaped.quoteChars {chars : List Char} (h : Escaped chars) :
    Escaped (quoteChars chars) := by
  have hquot : ReferenceBody "quot".toList := isReferenceBody_iff.mp (by decide)
  induction chars with
  | nil => exact escaped_nil
  | cons char rest ih =>
      obtain ⟨⟨hless, hgreater, hamp⟩, hrest⟩ := escaped_cons_iff.mp h
      rw [Text.quoteChars, List.flatMap_cons, ← Text.quoteChars]
      split
      · exact (ih hrest).append_reference hquot
      · exact escaped_cons_iff.mpr
          ⟨⟨hless, hgreater, fun heq => (hamp heq).quoteChars⟩, ih hrest⟩

/-- Escaping leaves nothing to escape, and changes no text that is escaped already. -/
theorem escape_settles (text : String) :
    (Escaped (escape text).toList ∧ escape (escape text) = escape text) ∧
      Escaped (escapeValue text).toList ∧ '"' ∉ (escapeValue text).toList ∧
      escapeValue (escapeValue text) = escapeValue text ∧
      escapeValue (escape text) = escapeValue text := by
  have htext : Escaped (escapeChars text.toList) := escaped_escapeChars _
  have hvalue : Escaped (quoteChars (escapeChars text.toList)) := htext.quoteChars
  have hquote : '"' ∉ quoteChars (escapeChars text.toList) := quote_not_mem_quoteChars _
  refine ⟨⟨?_, ?_⟩, ?_, ?_, ?_, ?_⟩
  · rwa [toList_escape]
  · rw [← String.toList_inj, toList_escape, toList_escape, escapeChars_eq_self_iff.mpr htext]
  · rwa [toList_escapeValue]
  · rwa [toList_escapeValue]
  · rw [← String.toList_inj, toList_escapeValue, toList_escapeValue,
      escapeChars_eq_self_iff.mpr hvalue, quoteChars_eq_self hquote]
  · rw [← String.toList_inj, toList_escapeValue, toList_escapeValue, toList_escape,
      escapeChars_eq_self_iff.mpr htext]

end DocMarkup.Text
