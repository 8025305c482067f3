import Mathlib.Data.Nat.Bitwise
import DocMarkup.Text.Case

/-!
Text in lower case.

What a character is in lower case has itself for its lower case, so that text in lower case is
left as it is, wherever a sigma stands in it. That no table entry leads to another one is read off
the tables at once: the code points that have an entry and those that entries lead to are taken
for the bits of two numbers, which have no bit in common.
-/

namespace DocMarkup.Text

def maskOf (numbers : List Nat) : Nat :=
  numbers.foldr (fun number mask => mask ||| 1 <<< number) 0

theorem testBit_maskOf {numbers : List Nat} {number : Nat} :
    (maskOf numbers).testBit number = true ↔ number ∈ numbers := by
  induction numbers with
  | nil => simp [maskOf]
  | cons first rest ih =>
      rw [maskOf, List.foldr_cons, ← maskOf, Nat.testBit_or, Bool.or_eq_true, ih,
        Nat.one_shiftLeft, Nat.testBit_two_pow, decide_eq_true_eq, List.mem_cons, or_comm,
        eq_comm]

theorem not_mem_of_masks {first second : List Nat} (h : maskOf first &&& maskOf second = 0)
    {number : Nat} (hnumber : number ∈ second) : number ∉ first := by
  intro hmem
  have hbit : (maskOf first &&& maskOf second).testBit number = true := by
    rw [Nat.testBit_and, testBit_maskOf.mpr hmem, testBit_maskOf.mpr hnumber]
    rfl
  rw [h, Nat.zero_testBit] at hbit
  cases hbit

namespace CaseRange

def codes (range : CaseRange) : List Nat :=
  (List.range ((range.last - range.first) / range.step + 1)).map fun count =>
    range.first + range.step * count

def image (range : CaseRange) (code : Nat) : Nat :=
  (code + range.offset : Int).toNat

end CaseRange

theorem exists_range_of_caseOffset? {ranges : List CaseRange} {code : Nat} {offset : Int}
    (h : caseOffset? ranges code = some offset) :
    ∃ range ∈ ranges, code ∈ range.codes ∧ range.offset = offset := by
  induction ranges with
  | nil => cases h
  | cons range rest ih =>
      rw [caseOffset?] at h
      split at h
      · cases h
      · next hfirst =>
          split at h
          · next hin =>
              refine ⟨range, List.mem_cons_self, List.mem_map.mpr
                ⟨(code - range.first) / range.step, ?_, ?_⟩, Option.some.inj h⟩
              · have hle := Nat.div_le_div_right (c := range.step)
                  (Nat.sub_le_sub_right hin.1 range.first)
                exact List.mem_range.mpr (Nat.lt_succ_of_le hle)
              · have hdiv := Nat.mod_add_div (code - range.first) range.step
                omega
          · obtain ⟨found, hmem, hfound⟩ := ih h
            exact ⟨found, List.mem_cons_of_mem _ hmem, hfound⟩

def loweredCodes : List Nat :=
  lowerExpansions.map Prod.fst ++ lowerRanges.flatMap CaseRange.codes

def lowerCodes : List Nat :=
  lowerExpansions.flatMap Prod.snd ++
    lowerRanges.flatMap fun range => range.codes.map range.image

theorem lowerCodes_apart : maskOf loweredCodes &&& maskOf (0 :: lowerCodes) = 0 := by
  decide +kernel

variable {char out : Char} {before chars : List Char}

theorem bounds_of_isUpper (h : char.isUpper = true) : 65 ≤ char.toNat ∧ char.toNat ≤ 90 := by
  have hbounds := of_decide_eq_true h
  exact ⟨UInt32.le_iff_toNat_le.mp hbounds.1, UInt32.le_iff_toNat_le.mp hbounds.2⟩

theorem toLower_eq_self (h : char.isUpper = false) : char.toLower = char := by
  exact dif_neg fun hupper => Bool.false_ne_true (h.symm.trans (decide_eq_true hupper))

theorem toNat_toLower (h : char.isUpper = true) : char.toLower.toNat = char.toNat + 32 := by
  have hbound : char.val.toNat ≤ 90 := (bounds_of_isUpper h).2
  have hlower : char.toLower.val = char.val + ('a'.val - 'A'.val) :=
    congrArg Char.val (dif_pos (of_decide_eq_true h))
  rw [Char.toNat, hlower, UInt32.toNat_add, show ('a'.val - 'A'.val).toNat = 32 from rfl]
  exact Nat.mod_eq_of_lt (by omega)

def asciiCapitals : CaseRange := ⟨0x41, 0x5A, 1, 32⟩

theorem mem_codes_of_isUpper (h : char.isUpper = true) : char.toNat ∈ asciiCapitals.codes := by
  have hbounds := bounds_of_isUpper h
  refine List.mem_map.mpr ⟨char.toNat - 65, List.mem_range.mpr ?_, ?_⟩
  · show char.toNat - 65 < 26
    omega
  · show 65 + 1 * (char.toNat - 65) = char.toNat
    omega

theorem lowerChar_eq_self (h : char.toNat ∉ loweredCodes) : lowerChar char = [char] := by
  obtain ⟨hexpansion, hrange⟩ := not_or.mp (List.mem_append.not.mp h)
  rw [lowerChar]
  split
  · rw [toLower_eq_self]
    refine Bool.eq_false_iff.mpr fun hupper => hrange (List.mem_flatMap.mpr ?_)
    exact ⟨asciiCapitals, List.mem_cons_self, mem_codes_of_isUpper hupper⟩
  · have hlookup : lowerExpansions.lookup char.toNat = none := by
      rw [List.lookup_eq_none_iff]
      intro entry hentry
      exact bne_iff_ne.mpr fun heq => hexpansion (List.mem_map.mpr ⟨entry, hentry, heq.symm⟩)
    have hoffset : caseOffset? lowerRanges char.toNat = none := by
      refine Option.eq_none_iff_forall_ne_some.mpr fun offset hsome => hrange ?_
      obtain ⟨range, hmem, hcode, -⟩ := exists_range_of_caseOffset? hsome
      exact List.mem_flatMap.mpr ⟨range, hmem, hcode⟩
    rw [mapCase, hlookup, hoffset]

theorem lowerChar_ofNat {code : Nat} (hcode : code ∈ lowerCodes) :
    lowerChar (Char.ofNat code) = [Char.ofNat code] := by
  refine lowerChar_eq_self (not_mem_of_masks lowerCodes_apart ?_)
  by_cases hvalid : code.isValidChar
  · rw [show (Char.ofNat code).toNat = code by rw [Char.ofNat, dif_pos hvalid]; rfl]
    exact List.mem_cons_of_mem _ hcode
  · rw [show (Char.ofNat code).toNat = 0 by rw [Char.ofNat, dif_neg hvalid]; rfl]
    exact List.mem_cons_self

theorem lowerChar_toLower (hascii : isAscii char = true) :
    lowerChar char.toLower = [char.toLower] := by
  cases hupper : char.isUpper with
  | false => rw [toLower_eq_self hupper, lowerChar, if_pos hascii, toLower_eq_self hupper]
  | true =>
      refine lowerChar_eq_self (not_mem_of_masks lowerCodes_apart (List.mem_cons_of_mem _ ?_))
      refine List.mem_append_right _ (List.mem_flatMap.mpr
        ⟨asciiCapitals, List.mem_cons_self, List.mem_map.mpr
          ⟨char.toNat, mem_codes_of_isUpper hupper, ?_⟩⟩)
      rw [toNat_toLower hupper]
      rfl

theorem lowerChar_of_mem (h : out ∈ lowerChar char) : lowerChar out = [out] := by
  rw [lowerChar] at h
  split at h
  · next hascii =>
      cases List.mem_singleton.mp h
      exact lowerChar_toLower hascii
  · next hascii =>
      rw [mapCase] at h
      split at h
      · next codes hcodes =>
          obtain ⟨code, hcode, rfl⟩ := List.mem_map.mp h
          obtain ⟨before, after, heq, -⟩ := List.lookup_eq_some_iff.mp hcodes
          refine lowerChar_ofNat (List.mem_append_left _
            (List.mem_flatMap.mpr ⟨(char.toNat, codes), ?_, hcode⟩))
          rw [heq]
          exact List.mem_append_right _ List.mem_cons_self
      · next hnone =>
          split at h
          · next offset hoffset =>
              cases List.mem_singleton.mp h
              obtain ⟨range, hmem, hcode, rfl⟩ := exists_range_of_caseOffset? hoffset
              exact lowerChar_ofNat (List.mem_append_right _ (List.mem_flatMap.mpr
                ⟨range, hmem, List.mem_map.mpr ⟨_, hcode, rfl⟩⟩))
          · next hoffset =>
              cases List.mem_singleton.mp h
              rw [lowerChar, if_neg hascii, mapCase, hnone, hoffset]

theorem isUpper_eq_false_of_lowerChar (h : lowerChar char = [char]) : char.isUpper = false := by
  refine Bool.eq_false_iff.mpr fun hupper => ?_
  have hascii : isAscii char = true := by
    have hbounds := bounds_of_isUpper hupper
    exact decide_eq_true (by omega)
  rw [lowerChar, if_pos hascii] at h
  have hnat := toNat_toLower hupper
  rw [List.singleton_inj.mp h] at hnat
  omega

def IsLower (chars : List Char) : Prop :=
  ∀ char ∈ chars, lowerChar char = [char]

theorem isLower_lowerFrom (before chars : List Char) : IsLower (lowerFrom before chars) := by
  induction chars generalizing before with
  | nil => exact fun _ h => absurd h List.not_mem_nil
  | cons char rest ih =>
      intro out hout
      rw [lowerFrom] at hout
      rcases List.mem_append.mp hout with hout | hout
      · split at hout
        · cases List.mem_singleton.mp hout
          unfold lowerSigma
          split <;> decide +kernel
        · exact lowerChar_of_mem hout
      · exact ih (char :: before) out hout

theorem IsLower.lowerFrom_eq_self (h : IsLower chars) (before : List Char) :
    lowerFrom before chars = chars := by
  induction chars generalizing before with
  | nil => rfl
  | cons char rest ih =>
      obtain ⟨hchar, hrest⟩ := List.forall_mem_cons.mp h
      have hsigma : char ≠ 'Σ' := by
        rintro rfl
        exact absurd hchar (by decide +kernel)
      rw [lowerFrom, if_neg hsigma, hchar, ih hrest]
      rfl

end DocMarkup.Text
