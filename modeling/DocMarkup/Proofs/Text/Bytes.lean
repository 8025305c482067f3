import Mathlib.Data.List.Basic
import DocMarkup.Proofs.Text.Slices
import DocMarkup.Text.Utf8

/-!
Bytes that are read as text.

An ASCII byte is a character of its own wherever it stands, also after a character that was not
completed. So what comes before it and what comes after it are read apart. What was written as
UTF-8 is read back.
-/

namespace DocMarkup.Text.Utf8

theorem low_of_lead? {byte code : Nat} {ranges : List ByteRange}
    (h : lead? byte = some (code, ranges)) : ∀ range ∈ ranges, 0x80 ≤ range.1 := by
  unfold lead? at h
  repeat' split at h
  all_goals simp only [reduceCtorEq, Option.some.injEq, Prod.mk.injEq] at h
  all_goals simp [← h.2, tail]

theorem continued_append {ranges : List ByteRange} (hranges : ∀ range ∈ ranges, 0x80 ≤ range.1)
    {byte : UInt8} (hbyte : byte.toNat < 0x80) (code : Nat) (before after : Bytes) :
    continued code ranges (before ++ byte :: after) =
      ((continued code ranges before).1, (continued code ranges before).2 ++ byte :: after) := by
  induction ranges generalizing code before with
  | nil => rfl
  | cons range ranges ih =>
      obtain ⟨low, high⟩ := range
      obtain ⟨hlow, hrest⟩ := List.forall_mem_cons.mp hranges
      cases before with
      | nil =>
          have hout : ¬ (low ≤ byte.toNat ∧ byte.toNat ≤ high) := by
            simp only at hlow
            omega
          exact if_neg hout
      | cons first before =>
          rw [List.cons_append, continued, continued]
          split
          · exact ih hrest _ _
          · rfl

theorem next_append {byte : UInt8} (hbyte : byte.toNat < 0x80) (first : UInt8)
    (before after : Bytes) :
    next first (before ++ byte :: after) =
      ((next first before).1, (next first before).2 ++ byte :: after) := by
  unfold next
  split
  · rfl
  · next code ranges hlead =>
      rw [continued_append (low_of_lead? hlead) hbyte]

theorem next_ascii {byte : UInt8} (hbyte : byte.toNat < 0x80) (after : Bytes) :
    next byte after = (some (Char.ofNat byte.toNat), after) := by
  rw [next, lead?, if_pos hbyte]
  rfl

theorem characters_append {byte : UInt8} (hbyte : byte.toNat < 0x80) (before after : Bytes) :
    characters (before ++ byte :: after) =
      characters before ++ some (Char.ofNat byte.toNat) :: characters after := by
  fun_induction characters before with
  | case1 =>
      rw [List.nil_append, characters, next_ascii hbyte]
      rfl
  | case2 first before ih =>
      rw [List.cons_append, characters, next_append hbyte, ih]
      rfl

theorem mapM_id_eq_some_iff {found : List (Option Char)} {chars : List Char} :
    found.mapM id = some chars ↔ found = chars.map some := by
  induction found generalizing chars with
  | nil => cases chars <;> simp
  | cons first found ih =>
      rw [List.mapM_cons, Option.bind_eq_bind, Option.bind_eq_some_iff]
      cases chars with
      | nil => simp [Option.bind_eq_some_iff]
      | cons other chars => simp [Option.bind_eq_some_iff, ih]

theorem decode?_eq_some_iff {bytes : Bytes} {text : String} :
    decode? bytes = some text ↔ characters bytes = text.toList.map some := by
  rw [decode?, Option.map_eq_some_iff]
  constructor
  · rintro ⟨chars, hchars, rfl⟩
    rw [String.toList_ofList]
    exact mapM_id_eq_some_iff.mp hchars
  · intro h
    exact ⟨text.toList, mapM_id_eq_some_iff.mpr h, String.ofList_toList⟩

theorem continued_cons {low high code bits : Nat} {ranges : List ByteRange}
    (h : low ≤ bits + 0x80 ∧ bits + 0x80 ≤ high) (hbits : bits < 0x40) (bytes : Bytes) :
    continued code ((low, high) :: ranges) (UInt8.ofNat (bits + 128) :: bytes) =
      continued (code * 64 + bits) ranges bytes := by
  have hbyte : (UInt8.ofNat (bits + 128)).toNat = bits + 0x80 := by
    rw [UInt8.toNat_ofNat']
    omega
  rw [continued, hbyte, if_pos h, Nat.add_sub_cancel]

theorem characters_of_lead? {first code : Nat} {ranges : List ByteRange} {bytes more : Bytes}
    {char : Char} (hfirst : first < 256) (hlead : lead? first = some (code, ranges))
    (hrest : continued code ranges bytes = (some char.val.toNat, more)) :
    characters (UInt8.ofNat first :: bytes) = some char :: characters more := by
  have hbyte : (UInt8.ofNat first).toNat = first := by
    rw [UInt8.toNat_ofNat']
    omega
  have hchar : Char.ofNat char.val.toNat = char := Char.ofNat_toNat char
  rw [characters, next, hbyte, hlead]
  simp only [hrest, Option.map_some, hchar]

theorem lead?_two {bits : Nat} (hlow : 2 ≤ bits) (hhigh : bits < 0x20) :
    lead? (bits + 192) = some (bits, [tail]) := by
  rw [lead?, if_neg (by omega), if_neg (by omega), if_pos (by omega), Nat.add_sub_cancel]

theorem exists_lead?_three (bits next : Nat) (hbits : bits < 0x10) (hnext : next < 0x40)
    (hlong : bits = 0 → 0x20 ≤ next) (hchar : bits = 13 → next < 0x20) :
    ∃ range, lead? (bits + 224) = some (bits, [range, tail]) ∧
      range.1 ≤ next + 0x80 ∧ next + 0x80 ≤ range.2 := by
  rw [lead?, if_neg (by omega), if_neg (by omega), if_neg (by omega)]
  by_cases hzero : bits = 0
  · subst hzero
    exact ⟨(0xA0, 0xBF), rfl, by simp only; omega⟩
  by_cases hlast : bits = 13
  · subst hlast
    exact ⟨(0x80, 0x9F), rfl, by simp only; omega⟩
  rw [if_neg (by omega), if_neg (by omega), if_pos (by omega), Nat.add_sub_cancel]
  exact ⟨tail, rfl, by simp only [tail]; omega⟩

theorem exists_lead?_four (bits next : Nat) (hbits : bits ≤ 4) (hnext : next < 0x40)
    (hlong : bits = 0 → 0x10 ≤ next) (hchar : bits = 4 → next < 0x10) :
    ∃ range, lead? (bits + 240) = some (bits, [range, tail, tail]) ∧
      range.1 ≤ next + 0x80 ∧ next + 0x80 ≤ range.2 := by
  rw [lead?, if_neg (by omega), if_neg (by omega), if_neg (by omega), if_neg (by omega),
    if_neg (by omega), if_neg (by omega)]
  by_cases hzero : bits = 0
  · subst hzero
    exact ⟨(0x90, 0xBF), rfl, by simp only; omega⟩
  by_cases hlast : bits = 4
  · subst hlast
    exact ⟨(0x80, 0x8F), rfl, by simp only; omega⟩
  rw [if_neg (by omega), if_pos (by omega), Nat.add_sub_cancel]
  exact ⟨tail, rfl, by simp only [tail]; omega⟩

theorem characters_utf8EncodeChar (char : Char) (more : Bytes) :
    characters (String.utf8EncodeChar char ++ more) = some char :: characters more := by
  have hvalid : char.val.toNat < 0xD800 ∨ 0xDFFF < char.val.toNat ∧ char.val.toNat < 0x110000 :=
    char.valid
  have hsix (code : Nat) : code % 64 < 0x40 := Nat.mod_lt _ (by decide)
  have htail (code : Nat) : 0x80 ≤ code % 64 + 0x80 ∧ code % 64 + 0x80 ≤ 0xBF := by omega
  unfold String.utf8EncodeChar
  simp only
  split
  · exact characters_of_lead? (by omega) (if_pos (by omega)) rfl
  split
  · refine characters_of_lead? (by omega) (lead?_two (by omega) (by omega)) ?_
    refine (continued_cons (htail _) (hsix _) more).trans ?_
    rw [continued]
    congr 2
    omega
  split
  · obtain ⟨range, hlead, hrange⟩ := exists_lead?_three (char.val.toNat / 4096 % 16)
      (char.val.toNat / 64 % 64) (by omega) (hsix _) (by omega) (by omega)
    refine characters_of_lead? (by omega) hlead ?_
    refine (continued_cons hrange (hsix _) _).trans ?_
    refine (continued_cons (htail _) (hsix _) more).trans ?_
    rw [continued]
    congr 2
    omega
  · obtain ⟨range, hlead, hrange⟩ := exists_lead?_four (char.val.toNat / 262144 % 8)
      (char.val.toNat / 4096 % 64) (by omega) (hsix _) (by omega) (by omega)
    refine characters_of_lead? (by omega) hlead ?_
    refine (continued_cons hrange (hsix _) _).trans ?_
    refine (continued_cons (htail _) (hsix _) _).trans ?_
    refine (continued_cons (htail _) (hsix _) more).trans ?_
    rw [continued]
    congr 2
    omega

theorem characters_bytes (text : List Char) : characters (bytes text) = text.map some := by
  induction text with
  | nil => rw [bytes, List.flatMap_nil, characters, List.map_nil]
  | cons char text ih =>
      rw [bytes, List.flatMap_cons, characters_utf8EncodeChar, ← bytes, ih, List.map_cons]

theorem toList_loop (bytes : ByteArray) (index : Nat) (before : List UInt8) :
    ByteArray.toList.loop bytes index before = before.reverse ++ bytes.data.toList.drop index := by
  fun_induction ByteArray.toList.loop bytes index before with
  | case1 index before hindex ih =>
      have hlength : index < bytes.data.toList.length := by simpa using hindex
      rw [ih, List.drop_eq_getElem_cons hlength]
      simp [ByteArray.get!, hindex]
  | case2 index before hindex =>
      rw [List.drop_eq_nil_of_le (by simpa using Nat.le_of_not_lt hindex), List.append_nil]

theorem encode_eq (text : String) : encode text = bytes text.toList := by
  rw [encode, ByteArray.toList, toList_loop]
  show text.toByteArray.data.toList = _
  rw [← String.ofList_toList (s := text), String.toByteArray_ofList, List.utf8Encode,
    List.toList_data_toByteArray, String.toList_ofList, bytes]

theorem decode?_encode (text : String) : decode? (encode text) = some text :=
  decode?_eq_some_iff.mpr (by rw [encode_eq, characters_bytes])

theorem decode?_nil : decode? [] = some "" :=
  decode?_eq_some_iff.mpr characters.eq_1

theorem decode?_append_eq_some_iff {byte : UInt8} (hbyte : byte.toNat < 0x80)
    {before after : Bytes} {text : String} :
    decode? (before ++ byte :: after) = some text ↔
      ∃ first second, decode? before = some first ∧ decode? after = some second ∧
        text = first ++ String.singleton (Char.ofNat byte.toNat) ++ second := by
  simp only [decode?_eq_some_iff, characters_append hbyte]
  constructor
  · intro h
    obtain ⟨first, rest, hsplit, hfirst, hrest⟩ := List.map_eq_append_iff.mp h.symm
    obtain ⟨char, second, rfl, hchar, hsecond⟩ := List.map_eq_cons_iff.mp hrest
    obtain rfl := Option.some.inj hchar
    refine ⟨String.ofList first, String.ofList second, ?_, ?_, ?_⟩
    · rw [String.toList_ofList, hfirst]
    · rw [String.toList_ofList, hsecond]
    · rw [← String.toList_inj, hsplit]
      simp
  · rintro ⟨first, second, hfirst, hsecond, rfl⟩
    simp [hfirst, hsecond]

end DocMarkup.Text.Utf8
