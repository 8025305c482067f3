/-!
Named patterns and the placeholders in them.

A pattern may stand for another one by name: `<<alpha>>` puts the pattern `alpha` in its
place, `<<letters:alpha>>` also captures it as the property `letters`. A name that starts
with an exclamation mark is private: such a pattern can be referred to, but is never matched
on its own.
-/

namespace DocMarkup

structure NamedPattern where
  name : String
  source : String
  deriving DecidableEq, Repr

inductive PatternPiece
  | literal (text : List Char)
  | reference (property : Option String) (target : String)
  deriving DecidableEq, Repr

namespace NamedPattern

def privateMarker : Char := '!'

def isPrivate (pattern : NamedPattern) : Bool :=
  pattern.name.toList.head? == some privateMarker

def label (pattern : NamedPattern) : String :=
  String.ofList (pattern.name.toList.dropWhile (· == privateMarker))

def isPlaceholderChar (char : Char) : Bool :=
  char.isAlpha || char == '_' || char == ':'

/-- The inside of the placeholder that the text starts with, and what follows it. -/
def placeholder? (text : List Char) : Option (List Char × List Char) :=
  match text with
  | '<' :: '<' :: inner =>
      let content := inner.takeWhile isPlaceholderChar
      match inner.dropWhile isPlaceholderChar with
      | '>' :: '>' :: rest => if content.isEmpty then none else some (content, rest)
      | _ => none
  | _ => none

theorem length_dropWhile_le (test : Char → Bool) (text : List Char) :
    (text.dropWhile test).length ≤ text.length :=
  (List.dropWhile_suffix test).length_le

theorem length_of_placeholder? {text content rest : List Char}
    (h : placeholder? text = some (content, rest)) : rest.length < text.length := by
  unfold placeholder? at h
  split at h
  · rename_i inner
    simp only at h
    split at h
    · rename_i after hafter
      have hle := length_dropWhile_le isPlaceholderChar inner
      rw [hafter] at hle
      split at h
      · simp at h
      · simp only [Option.some.injEq, Prod.mk.injEq] at h
        simp only [← h.2, List.length_cons] at hle ⊢
        omega
    · simp at h
  · simp at h

/-- A colon, if there is one, ends the name of the property. -/
def reference (content : List Char) : PatternPiece :=
  match content.dropWhile (· != ':') with
  | _ :: target =>
      .reference (some (String.ofList (content.takeWhile (· != ':')))) (String.ofList target)
  | [] => .reference none (String.ofList content)

def consLiteral (char : Char) : List PatternPiece → List PatternPiece
  | .literal text :: pieces => .literal (char :: text) :: pieces
  | pieces => .literal [char] :: pieces

def piecesOf : List Char → List PatternPiece
  | [] => []
  | char :: rest =>
      match _h : placeholder? (char :: rest) with
      | some (content, after) => reference content :: piecesOf after
      | none => consLiteral char (piecesOf rest)
termination_by text => text.length
decreasing_by
  · exact length_of_placeholder? _h
  · simp

def pieces (pattern : NamedPattern) : List PatternPiece :=
  piecesOf pattern.source.toList

def references (pattern : NamedPattern) : List String :=
  pattern.pieces.filterMap fun
    | .literal _ => none
    | .reference _ target => some target

end NamedPattern

end DocMarkup
