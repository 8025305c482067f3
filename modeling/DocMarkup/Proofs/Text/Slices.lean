import DocMarkup.Proofs.Grammar.Partition
import DocMarkup.Text.Case

/-!
Text by its bytes.

A number of bytes cuts a text in two only where a character ends. The bytes tell the characters: those
of one character never start with those of another, and the case of ASCII letters makes no difference
to their number.
-/

namespace DocMarkup.Text

open Grammar (byteLength byteLength_append byteLength_pos)

/-- What comes before a number of bytes and what comes after; `none` where the text has fewer of
them or the cut is inside a character. -/
def cutAt? : Nat → List Char → Option (List Char × List Char)
  | 0, text => some ([], text)
  | _ + 1, [] => none
  | size + 1, char :: text =>
      if char.utf8Size ≤ size + 1 then
        (cutAt? (size + 1 - char.utf8Size) text).map fun (before, after) => (char :: before, after)
      else none

theorem cutAt?_byteLength (before after : List Char) :
    cutAt? (byteLength before) (before ++ after) = some (before, after) := by
  induction before with
  | nil => rw [byteLength, List.nil_append, cutAt?]
  | cons char before ih =>
      obtain ⟨size, hsize⟩ : ∃ size, byteLength (char :: before) = size + 1 :=
        Nat.exists_eq_add_one.mpr (byteLength_pos (List.cons_ne_nil char before))
      have hrest : size + 1 - char.utf8Size = byteLength before := by
        rw [← hsize, byteLength, Nat.add_sub_cancel_left]
      rw [hsize, List.cons_append, cutAt?, if_pos (by rw [← hsize]; exact Nat.le_add_right _ _),
        hrest, ih, Option.map_some]

theorem cutAt?_eq_some_iff {size : Nat} {text before after : List Char} :
    cutAt? size text = some (before, after) ↔
      text = before ++ after ∧ byteLength before = size := by
  constructor
  · intro h
    induction text generalizing size before with
    | nil =>
        cases size with
        | zero =>
            cases h
            exact ⟨rfl, rfl⟩
        | succ size => cases h
    | cons char text ih =>
        cases size with
        | zero =>
            cases h
            exact ⟨rfl, rfl⟩
        | succ size =>
            rw [cutAt?] at h
            split at h
            · rename_i hle
              obtain ⟨⟨before, _⟩, hcut, heq⟩ := Option.map_eq_some_iff.mp h
              obtain ⟨rfl, rfl⟩ := Prod.mk.injEq .. ▸ heq
              obtain ⟨rfl, hsize⟩ := ih hcut
              exact ⟨rfl, by rw [byteLength, hsize]; omega⟩
            · cases h
  · rintro ⟨rfl, rfl⟩
    exact cutAt?_byteLength before after

def bytes (text : List Char) : List UInt8 :=
  text.flatMap String.utf8EncodeChar

theorem length_bytes (text : List Char) : (bytes text).length = byteLength text := by
  induction text with
  | nil => rfl
  | cons char text ih =>
      rw [bytes, List.flatMap_cons, List.length_append, String.length_utf8EncodeChar, byteLength,
        ← ih, bytes]

theorem eq_of_utf8EncodeChar_append {first second : Char} {after rest : List UInt8}
    (h : String.utf8EncodeChar first ++ after = String.utf8EncodeChar second ++ rest) :
    first = second := by
  have hfirst := @ByteArray.utf8DecodeChar?_utf8EncodeChar_append after.toByteArray first
  have hsecond := @ByteArray.utf8DecodeChar?_utf8EncodeChar_append rest.toByteArray second
  rw [← List.toByteArray_append] at hfirst hsecond
  rw [h, hsecond, Option.some.injEq] at hfirst
  exact hfirst.symm

theorem getElem?_bytes_eq_some_iff (before after : List Char) {char single : Char} {byte : UInt8}
    (hsingle : String.utf8EncodeChar single = [byte]) :
    (bytes (before ++ char :: after))[byteLength before]? = some byte ↔ char = single := by
  obtain ⟨first, rest, hchar⟩ :=
    List.exists_cons_of_ne_nil (String.utf8EncodeChar_ne_nil (c := char))
  have hbyte : (bytes (before ++ char :: after))[byteLength before]? = some first := by
    rw [bytes, List.flatMap_append, List.flatMap_cons, hchar, ← bytes, ← length_bytes,
      List.getElem?_append_right (Nat.le_refl _), Nat.sub_self, List.cons_append,
      List.getElem?_cons_zero]
  rw [hbyte, Option.some.injEq]
  constructor
  · rintro rfl
    refine @eq_of_utf8EncodeChar_append _ _ [] rest ?_
    rw [hchar, hsingle, List.append_nil, List.singleton_append]
  · rintro rfl
    rw [hchar] at hsingle
    exact (List.cons.inj hsingle).1

theorem utf8Size_toLower (char : Char) : char.toLower.utf8Size = char.utf8Size := by
  by_cases h : char.val ≥ 'A'.val ∧ char.val ≤ 'Z'.val
  · have hlower : char.toLower.val = char.val + ('a'.val - 'A'.val) := congrArg Char.val (dif_pos h)
    have hle : char.val.toNat ≤ 90 := UInt32.le_iff_toNat_le.mp h.2
    have hnat : char.toLower.val.toNat = char.val.toNat + 32 := by
      have hadd : ('a'.val - 'A'.val).toNat = 32 := by decide
      rw [hlower, UInt32.toNat_add, hadd]
      omega
    have hbytes (char : Char) (h : char.val.toNat ≤ 127) : char.utf8Size = 1 :=
      Char.utf8Size_eq_one_iff.mpr (UInt32.le_iff_toNat_le.mpr h)
    rw [hbytes char (by omega), hbytes char.toLower (by omega)]
  · rw [show char.toLower = char from dif_neg h]

theorem byteLength_eq_of_same {first second : List Char}
    (h : sameIgnoringAsciiCase first second = true) : byteLength first = byteLength second := by
  have hlower (text : List Char) : byteLength (text.map Char.toLower) = byteLength text := by
    induction text with
    | nil => rfl
    | cons char text ih => rw [List.map_cons, byteLength, byteLength, utf8Size_toLower, ih]
  rw [← hlower first, ← hlower second, eq_of_beq h]

end DocMarkup.Text
