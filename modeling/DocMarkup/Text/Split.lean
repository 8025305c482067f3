namespace DocMarkup.Text

/-- The parts between the separators, of which there is always one more. -/
def splitChars (separator : Char) : List Char → List (List Char)
  | [] => [[]]
  | char :: rest =>
      if char = separator then [] :: splitChars separator rest
      else
        match splitChars separator rest with
        | part :: parts => (char :: part) :: parts
        | [] => [[char]]

theorem splitChars_ne_nil (separator : Char) (chars : List Char) :
    splitChars separator chars ≠ [] := by
  cases chars with
  | nil => simp [splitChars]
  | cons char rest =>
      simp only [splitChars]
      split
      · simp
      · split <;> simp

def split (separator : Char) (text : String) : List String :=
  (splitChars separator text.toList).map String.ofList

def afterChars? : (start text : List Char) → Option (List Char)
  | [], text => some text
  | _ :: _, [] => none
  | first :: start, char :: text => if first = char then afterChars? start text else none

theorem afterChars?_eq_some_iff {start text rest : List Char} :
    afterChars? start text = some rest ↔ text = start ++ rest := by
  induction start generalizing text with
  | nil => simp [afterChars?, eq_comm]
  | cons first start ih =>
      cases text with
      | nil => simp [afterChars?]
      | cons char text =>
          simp only [afterChars?, List.cons_append, List.cons.injEq]
          split
          · rename_i h
            simp [h, ih]
          · rename_i h
            simp [Ne.symm h]

end DocMarkup.Text
