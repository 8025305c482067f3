import DocMarkup.Data.Yaml.Layout
import DocMarkup.Data.Yaml.Scalar

/-!
From the characters of YAML to its tokens.

Characters are taken one at a time; what one does depends on the layout before it, on what is
being read and on the characters that follow.
-/

namespace DocMarkup.Data.Yaml

inductive Reading
  | nothing
  | comment
  | documentMark (more : Nat)
  | plain (scalar : PlainScalar)
  | quoted (scalar : QuotedScalar)
  deriving DecidableEq, Repr

structure State where
  layout : Layout := {}
  reading : Reading := .nothing
  deriving Repr

def isBracketMark (char : Char) : Bool :=
  char == ',' || char == '[' || char == ']' || char == '\x7b' || char == '\x7d'

def isReserved (char : Char) : Bool :=
  "&*!|>%@`\t".toList.contains char

def bracketMark? (layout : Layout) (place : Place) : Char → Option Layout
  | ',' => layout.comma?
  | '[' => layout.openBracket? place .openList
  | ']' => layout.closeBracket? .closeList
  | '\x7b' => layout.openBracket? place .openRecord
  | '\x7d' => layout.closeBracket? .closeRecord
  | _ => none

def startToken? (layout : Layout) (place : Place) (char : Char) (rest : List Char) :
    Option State := do
  let layout := (← layout.dropLostKey? place).closeBlocks (· ≤ place.column)
  if place.column = 0 ∧ isDocumentMark (char :: rest) then
    let token := if char = '-' then Token.documentStart else .documentEnd
    return ⟨← layout.documentMark? token, .documentMark 2⟩
  else if isBracketMark char then return ⟨← bracketMark? layout place char, .nothing⟩
  else if char = '-' ∧ endsWord rest then return ⟨← layout.dash? place.column, .nothing⟩
  else if char = '?' ∧ (layout.inBrackets ∨ endsWord rest) then
    return ⟨← layout.questionMark? place.column, .nothing⟩
  else if char = ':' ∧ (layout.inBrackets ∨ endsWord rest) then
    return ⟨← layout.colon? place.column, .nothing⟩
  else if char = '\'' ∨ char = '"' then
    return ⟨← layout.scalar? place, .quoted { isDouble := char == '"' }⟩
  else if isReserved char then none
  else return ⟨← layout.scalar? place, .plain { read := [char] }⟩

/-- Whether a character between tokens is passed over. Tabs do not stand where a key may
start, and an order mark only at the start of the text. -/
def isPassedOver (layout : Layout) (place : Place) (char : Char) : Bool :=
  char == ' ' || (char == '\t' && (layout.inBrackets || !layout.keyAllowed)) ||
    (isOrderMark char && place.index == 0)

def stepNothing? (layout : Layout) (place : Place) (char : Char) (rest : List Char) :
    Option State :=
  if isBreak char then some ⟨layout.lineBreak, .nothing⟩
  else if isPassedOver layout place char then some ⟨layout, .nothing⟩
  else if char = '#' then some ⟨layout, .comment⟩
  else startToken? layout place char rest

/-- Whether a word may not go on a scalar, as it is a comment or a mark of documents or does
not stand inside the block. -/
def endsBeforeWord (layout : Layout) (place : Place) (char : Char) (rest : List Char) : Bool :=
  char == '#' || (place.column == 0 && isDocumentMark (char :: rest)) ||
    !(layout.inBrackets || layout.isInside place.column)

def endsBefore (layout : Layout) (char : Char) (rest : List Char) : Bool :=
  (char == ':' && endsWord rest) || (layout.inBrackets && isBracketMark char)

/-- Inside brackets a colon in a scalar is not followed by a mark. -/
def isMisplaced (layout : Layout) (char : Char) (rest : List Char) : Bool :=
  layout.inBrackets && char == ':' &&
    rest.head?.any fun next => isBracketMark next || next == '?'

/-- The layout after a scalar; the next line may start a key. -/
def finishPlain (layout : Layout) (scalar : PlainScalar) : Layout :=
  (layout.push (.scalar (.plain scalar.spelling))).allowKey
    (layout.keyAllowed || scalar.gap.hasBreak)

def stepPlain? (layout : Layout) (scalar : PlainScalar) (place : Place) (char : Char)
    (rest : List Char) : Option State :=
  if isBlank char || isBreak char then
    if char = '\t' ∧ scalar.gap.hasBreak ∧ !layout.isInside place.column then none
    else some ⟨layout, .plain (scalar.skip char)⟩
  else if !scalar.gap.isEmpty && endsBeforeWord layout place char rest then
    stepNothing? (finishPlain layout scalar) place char rest
  else if isMisplaced layout char rest then none
  else if endsBefore layout char rest then
    stepNothing? (finishPlain layout scalar) place char rest
  else some ⟨layout, .plain (scalar.add char)⟩

namespace State

def step? (state : State) (place : Place) (char : Char) (rest : List Char) : Option State :=
  let layout := state.layout
  match state.reading with
  | .nothing => stepNothing? layout place char rest
  | .comment =>
      if isBreak char then some ⟨layout.lineBreak, .nothing⟩ else some ⟨layout, .comment⟩
  | .documentMark more =>
      if more ≤ 1 then some ⟨layout, .nothing⟩ else some ⟨layout, .documentMark (more - 1)⟩
  | .plain scalar => stepPlain? layout scalar place char rest
  | .quoted scalar =>
      match scalar.step? place.column char rest with
      | none => none
      | some (.reading scalar) => some ⟨layout, .quoted scalar⟩
      | some (.closed text) => some ⟨layout.push (.scalar (.text text)), .nothing⟩

def finish? (state : State) (place : Place) : Option (List Token) :=
  match state.reading with
  | .quoted _ => none
  | .plain scalar => (finishPlain state.layout scalar).finish? place
  | _ => state.layout.finish? place

def run? (state : State) (place : Place) : List Char → Option (List Token)
  | [] => state.finish? place
  | char :: rest =>
      match state.step? place char rest with
      | none => none
      | some state => state.run? (place.after char) rest

end State

def tokens? (text : List Char) : Option (List Token) :=
  State.run? {} {} text

end DocMarkup.Data.Yaml
