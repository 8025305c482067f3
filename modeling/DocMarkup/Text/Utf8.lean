/-!
UTF-8: reading bytes as text, either exactly or with a replacement character for each
longest run of bytes that starts a character and does not complete it.
-/

namespace DocMarkup.Text.Utf8

abbrev Bytes := List UInt8

def encode (text : String) : Bytes :=
  text.toUTF8.toList

abbrev ByteRange := Nat × Nat

def tail : ByteRange := (0x80, 0xBF)

/-- What a first byte contributes to the code point, and the ranges that the bytes after it
must lie in; `none` where no character starts with the byte. -/
def lead? (byte : Nat) : Option (Nat × List ByteRange) :=
  if byte < 0x80 then some (byte, [])
  else if byte < 0xC2 then none
  else if byte < 0xE0 then some (byte - 0xC0, [tail])
  else if byte = 0xE0 then some (0, [(0xA0, 0xBF), tail])
  else if byte = 0xED then some (0xD, [(0x80, 0x9F), tail])
  else if byte < 0xF0 then some (byte - 0xE0, [tail, tail])
  else if byte = 0xF0 then some (0, [(0x90, 0xBF), tail, tail])
  else if byte < 0xF4 then some (byte - 0xF0, [tail, tail, tail])
  else if byte = 0xF4 then some (4, [(0x80, 0x8F), tail, tail])
  else none

/-- Reads one byte for each range, up to the first that does not fit; the code point is
`none` in that case. -/
def continued (code : Nat) : List ByteRange → Bytes → Option Nat × Bytes
  | [], bytes => (some code, bytes)
  | _ :: _, [] => (none, [])
  | (low, high) :: ranges, byte :: bytes =>
      if low ≤ byte.toNat ∧ byte.toNat ≤ high then
        continued (code * 64 + (byte.toNat - 0x80)) ranges bytes
      else (none, byte :: bytes)

theorem length_continued_le (code : Nat) (ranges : List ByteRange) (bytes : Bytes) :
    (continued code ranges bytes).2.length ≤ bytes.length := by
  induction ranges generalizing code bytes with
  | nil => simp [continued]
  | cons range ranges ih =>
      cases bytes with
      | nil => simp [continued]
      | cons byte bytes =>
          obtain ⟨low, high⟩ := range
          simp only [continued]
          split
          · exact Nat.le_trans (ih _ _) (by simp)
          · simp

/-- The first character, or `none` for a run of bytes that completes none. -/
def next (byte : UInt8) (bytes : Bytes) : Option Char × Bytes :=
  match lead? byte.toNat with
  | none => (none, bytes)
  | some (code, ranges) =>
      let (code?, rest) := continued code ranges bytes
      (code?.map Char.ofNat, rest)

theorem length_next_le (byte : UInt8) (bytes : Bytes) :
    (next byte bytes).2.length ≤ bytes.length := by
  unfold next
  split
  · simp
  · exact length_continued_le _ _ _

/-- The characters of the bytes, with `none` for each run that completes none. -/
def characters : Bytes → List (Option Char)
  | [] => []
  | byte :: bytes => (next byte bytes).1 :: characters (next byte bytes).2
termination_by bytes => bytes.length
decreasing_by
  have := length_next_le byte bytes
  simp only [List.length_cons]
  omega

def replacement : Char := '\uFFFD'

def decodeLossy (bytes : Bytes) : String :=
  String.ofList ((characters bytes).map (·.getD replacement))

/-- The text that the bytes encode; `none` if they are not UTF-8. -/
def decode? (bytes : Bytes) : Option String :=
  ((characters bytes).mapM id).map String.ofList

end DocMarkup.Text.Utf8
