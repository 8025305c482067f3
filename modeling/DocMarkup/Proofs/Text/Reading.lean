import DocMarkup.Proofs.Text.Escaping

/-!
What is read in a text with references.

A reader of a page sees the special characters where their references stand, and takes every other
reference for one symbol. Escaping changes nothing of what is read, neither for text nor for
attribute values.
-/

namespace DocMarkup.Text

/-- A character, or a reference that is left as it is. -/
inductive Symbol
  | char (char : Char)
  | reference (body : List Char)
  deriving DecidableEq, Repr

/-- The references that are read as characters, without ampersand and semicolon. -/
def specialReferences : List (List Char × Char) :=
  [("amp".toList, '&'), ("lt".toList, '<'), ("gt".toList, '>'), ("quot".toList, '"')]

def Symbol.ofBody (body : List Char) : Symbol :=
  (specialReferences.lookup body).elim (.reference body) .char

theorem reference?_eq_some_iff {chars body rest : List Char} :
    reference? chars = some (body, rest) ↔
      chars = body ++ ';' :: rest ∧ ReferenceBody body := by
  constructor
  · intro h
    unfold reference? at h
    split at h
    · next after hdrop =>
        simp only at h
        split at h
        · next hbody =>
            cases h
            refine ⟨?_, isReferenceBody_iff.mp hbody⟩
            rw [← hdrop, List.takeWhile_append_dropWhile]
        · cases h
    · cases h
  · rintro ⟨rfl, hbody⟩
    have hchars : ∀ char ∈ body, (char != ';') = true := by
      intro char hmem
      rw [bne_iff_ne]
      rintro rfl
      exact hbody.not_mem (by decide) (by decide) hmem
    rw [reference?, List.dropWhile_append_of_pos hchars, List.takeWhile_append_of_pos hchars]
    simp [isReferenceBody_iff.mpr hbody]

theorem reference?_eq_none_iff {chars : List Char} :
    reference? chars = none ↔ ¬ CompletesReference chars := by
  rw [← startsReference_iff, startsReference, Bool.not_eq_true, Option.isSome_eq_false_iff,
    Option.isNone_iff_eq_none]

theorem length_of_reference? {chars body rest : List Char}
    (h : reference? chars = some (body, rest)) : rest.length < chars.length := by
  rw [(reference?_eq_some_iff.mp h).1, List.length_append, List.length_cons]
  omega

/-- Reads a text from left to right. An ampersand that starts no reference is read as itself. -/
def decode : List Char → List Symbol
  | [] => []
  | char :: rest =>
      if char = '&' then
        match _h : reference? rest with
        | some (body, after) => .ofBody body :: decode after
        | none => .char char :: decode rest
      else .char char :: decode rest
termination_by chars => chars.length
decreasing_by
  · exact Nat.lt_succ_of_lt (length_of_reference? _h)
  · exact Nat.lt_succ_self _
  · exact Nat.lt_succ_self _

theorem decode_reference {body : List Char} (h : ReferenceBody body) (rest : List Char) :
    decode ('&' :: (body ++ ';' :: rest)) = .ofBody body :: decode rest := by
  have hreference : reference? (body ++ ';' :: rest) = some (body, rest) :=
    reference?_eq_some_iff.mpr ⟨rfl, h⟩
  rw [decode, if_pos rfl]
  split
  · next heq =>
      cases hreference.symm.trans heq
      rfl
  · next heq => cases hreference.symm.trans heq

theorem decode_char {char : Char} (h : char ≠ '&') (rest : List Char) :
    decode (char :: rest) = .char char :: decode rest := by
  rw [decode, if_neg h]

theorem decode_special (body : List Char) {char : Char}
    (hmem : (body, char) ∈ specialReferences) (rest : List Char) :
    decode ('&' :: (body ++ ';' :: rest)) = .char char :: decode rest := by
  have hbodies : ∀ entry ∈ specialReferences,
      isReferenceBody entry.1 = true ∧ Symbol.ofBody entry.1 = .char entry.2 := by decide
  obtain ⟨hbody, hsymbol⟩ := hbodies _ hmem
  rw [decode_reference (isReferenceBody_iff.mp hbody), hsymbol]

theorem escapeChars_reference {body : List Char} (h : ReferenceBody body) (rest : List Char) :
    escapeChars ('&' :: (body ++ ';' :: rest)) = '&' :: (body ++ ';' :: escapeChars rest) := by
  rw [escapeChars, if_pos rfl, if_pos (startsReference_iff.mpr ⟨body, rest, rfl, h⟩),
    List.append_cons, escapeChars_append_plain h.plain, ← List.append_cons]

theorem decode_escapeChars (chars : List Char) : decode (escapeChars chars) = decode chars := by
  fun_induction decode chars with
  | case1 => rw [escapeChars, decode]
  | case2 rest body after hreference ih =>
      obtain ⟨rfl, hbody⟩ := reference?_eq_some_iff.mp hreference
      rw [escapeChars_reference hbody, decode_reference hbody, ih]
  | case3 rest hreference ih =>
      have hstarts : ¬ startsReference rest = true := fun h =>
        reference?_eq_none_iff.mp hreference (startsReference_iff.mp h)
      rw [escapeChars, if_pos rfl, if_neg hstarts, ← ih]
      exact decode_special "amp".toList (by decide) _
  | case4 char rest hamp ih =>
      rw [escapeChars, if_neg hamp, ← ih]
      split
      · next hless =>
          rw [hless]
          exact decode_special "lt".toList (by decide) _
      · split
        · next hgreater =>
            rw [hgreater]
            exact decode_special "gt".toList (by decide) _
        · exact decode_char hamp _

theorem quoteChars_append (first second : List Char) :
    quoteChars (first ++ second) = quoteChars first ++ quoteChars second :=
  List.flatMap_append

theorem quoteChars_cons (char : Char) (rest : List Char) :
    quoteChars (char :: rest) =
      (if char = '"' then "&quot;".toList else [char]) ++ quoteChars rest :=
  List.flatMap_cons

theorem quoteChars_reference {body : List Char} (h : ReferenceBody body) (rest : List Char) :
    quoteChars ('&' :: (body ++ ';' :: rest)) = '&' :: (body ++ ';' :: quoteChars rest) := by
  have hquote : '"' ∉ body := h.not_mem (by decide) (by decide)
  rw [quoteChars_cons, quoteChars_append, quoteChars_eq_self hquote, quoteChars_cons]
  rfl

theorem Escaped.of_append {first second : List Char} (h : Escaped (first ++ second)) :
    Escaped second where
  less hmem := h.less (List.mem_append_right first hmem)
  greater hmem := h.greater (List.mem_append_right first hmem)
  references before after heq :=
    h.references (first ++ before) after (by rw [heq, List.append_assoc])

/-- In an escaped text every ampersand starts a reference, in which there is no quote. -/
theorem Escaped.decode_quoteChars {chars : List Char} (h : Escaped chars) :
    decode (Text.quoteChars chars) = decode chars := by
  fun_induction decode chars with
  | case1 => exact decode.eq_1
  | case2 rest body after hreference ih =>
      obtain ⟨rfl, hbody⟩ := reference?_eq_some_iff.mp hreference
      rw [List.append_cons, ← List.cons_append] at h
      rw [quoteChars_reference hbody, decode_reference hbody, ih h.of_append]
  | case3 rest hreference =>
      obtain ⟨⟨-, -, hcompletes⟩, -⟩ := escaped_cons_iff.mp h
      exact absurd (hcompletes rfl) (reference?_eq_none_iff.mp hreference)
  | case4 char rest hamp ih =>
      obtain ⟨-, hrest⟩ := escaped_cons_iff.mp h
      rw [quoteChars_cons, ← ih hrest]
      split
      · next hquote =>
          rw [hquote]
          exact decode_special "quot".toList (by decide) _
      · exact decode_char hamp _

/-- Escaped text reads as the text itself. -/
theorem decode_escape (text : String) :
    decode (escape text).toList = decode text.toList ∧
      decode (escapeValue text).toList = decode text.toList := by
  rw [toList_escape, toList_escapeValue,
    (escaped_escapeChars text.toList).decode_quoteChars, decode_escapeChars]
  exact ⟨rfl, rfl⟩

end DocMarkup.Text
