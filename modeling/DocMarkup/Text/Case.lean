import DocMarkup.Text.Alphabet
import DocMarkup.Text.CaseTables

/-!
Upper and lower case of text, with the mappings of one character to several and the final
form of sigma.
-/

namespace DocMarkup.Text

def caseOffset? : List CaseRange → Nat → Option Int
  | [], _ => none
  | range :: rest, code =>
      if code < range.first then none
      else if code ≤ range.last ∧ (code - range.first) % range.step = 0 then some range.offset
      else caseOffset? rest code

def mapCase (expansions : List (Nat × List Nat)) (ranges : List CaseRange)
    (char : Char) : List Char :=
  match expansions.lookup char.toNat with
  | some codes => codes.map Char.ofNat
  | none =>
      match caseOffset? ranges char.toNat with
      | some offset => [Char.ofNat (char.toNat + offset).toNat]
      | none => [char]

def lowerChar (char : Char) : List Char :=
  if isAscii char then [char.toLower] else mapCase lowerExpansions lowerRanges char

def upperChar (char : Char) : List Char :=
  if isAscii char then [char.toUpper] else mapCase upperExpansions upperRanges char

def isCased (char : Char) : Bool :=
  inRanges casedRanges char.toNat

def isCaseIgnorable (char : Char) : Bool :=
  inRanges caseIgnorableRanges char.toNat

/-- Whether a cased character comes first, apart from ignorable ones. -/
def startsCased (chars : List Char) : Bool :=
  match chars.dropWhile isCaseIgnorable with
  | [] => false
  | char :: _ => isCased char

/-- A capital sigma has its final form after a cased character and not before one. -/
def lowerSigma (before after : List Char) : Char :=
  if startsCased before && !startsCased after then 'ς' else 'σ'

/-- Lower case of text; `before` is what precedes it, nearest character first. -/
def lowerFrom (before : List Char) : List Char → List Char
  | [] => []
  | char :: rest =>
      (if char = 'Σ' then [lowerSigma before rest] else lowerChar char) ++
        lowerFrom (char :: before) rest

def lowerChars (chars : List Char) : List Char :=
  lowerFrom [] chars

def upperChars (chars : List Char) : List Char :=
  chars.flatMap upperChar

def lower (text : String) : String :=
  String.ofList (lowerChars text.toList)

def upper (text : String) : String :=
  String.ofList (upperChars text.toList)

def lowerAscii (text : String) : String :=
  String.ofList (text.toList.map Char.toLower)

def sameIgnoringAsciiCase (first second : List Char) : Bool :=
  first.map Char.toLower == second.map Char.toLower

end DocMarkup.Text
