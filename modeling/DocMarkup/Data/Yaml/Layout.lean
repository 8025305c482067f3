import DocMarkup.Data.Value
import DocMarkup.Data.Yaml.Text

/-!
The tokens of YAML, with blocks made explicit by their starts and ends.

Blocks are told apart by columns. A scalar or a bracket may turn out to start a key only at
the colon after it; so where a key may start is kept, and tokens are put there afterwards.
-/

namespace DocMarkup.Data.Yaml

inductive Token
  | documentStart
  | documentEnd
  | blockList
  | blockRecord
  | blockEnd
  | openList
  | closeList
  | openRecord
  | closeRecord
  | dash
  | comma
  | key
  | colon
  | scalar (value : Value)
  deriving Repr

structure PossibleKey where
  place : Place
  position : Nat
  required : Bool
  deriving DecidableEq, Repr

namespace PossibleKey

def maxLength : Nat := 1024

/-- A key lies on one line and is not too long. -/
def isLost (key : PossibleKey) (place : Place) : Bool :=
  key.place.line < place.line || key.place.index + maxLength < place.index

end PossibleKey

structure Layout where
  /-- Last first. -/
  tokens : List Token := []
  count : Nat := 0
  /-- The columns of the open blocks, innermost first. -/
  blocks : List Nat := []
  possibleKey : Option PossibleKey := none
  /-- The keys that may have started around the open brackets, innermost first. -/
  outerKeys : List (Option PossibleKey) := []
  /-- Whether a key may start here. -/
  keyAllowed : Bool := true
  deriving Repr

namespace Layout

def inBrackets (layout : Layout) : Bool :=
  !layout.outerKeys.isEmpty

def isInside (layout : Layout) (column : Nat) : Bool :=
  layout.blocks.head?.all (· < column)

def push (layout : Layout) (token : Token) : Layout :=
  { layout with tokens := token :: layout.tokens, count := layout.count + 1 }

def insert (layout : Layout) (position : Nat) (token : Token) : Layout :=
  let later := layout.count - position
  { layout with
    tokens := layout.tokens.take later ++ token :: layout.tokens.drop later
    count := layout.count + 1 }

def allowKey (layout : Layout) (keyAllowed : Bool) : Layout :=
  { layout with keyAllowed }

/-- Closes the blocks whose columns do not satisfy `stays`, up to the first that does. -/
def closeBlocks (layout : Layout) (stays : Nat → Bool) : Layout :=
  if layout.inBrackets then layout
  else
    let closed := (layout.blocks.takeWhile (!stays ·)).length
    { layout with
      tokens := List.replicate closed .blockEnd ++ layout.tokens
      count := layout.count + closed
      blocks := layout.blocks.drop closed }

def openBlock (layout : Layout) (column position : Nat) (token : Token) : Layout :=
  if layout.inBrackets || !layout.isInside column then layout
  else { layout.insert position token with blocks := column :: layout.blocks }

def dropKey? (layout : Layout) : Option Layout :=
  if layout.possibleKey.any (·.required) then none
  else some { layout with possibleKey := none }

def dropLostKey? (layout : Layout) (place : Place) : Option Layout :=
  if layout.possibleKey.any (·.isLost place) then layout.dropKey? else some layout

/-- A key may start with the next token. -/
def markKey? (layout : Layout) (place : Place) : Option Layout :=
  if layout.keyAllowed then
    layout.dropKey?.map fun layout =>
      let required := !layout.inBrackets && layout.blocks.head? == some place.column
      { layout with possibleKey := some ⟨place, layout.count, required⟩ }
  else some layout

def openBracket? (layout : Layout) (place : Place) (token : Token) : Option Layout :=
  (layout.markKey? place).map fun layout =>
    { layout.push token with
      possibleKey := none
      outerKeys := layout.possibleKey :: layout.outerKeys
      keyAllowed := true }

def closeBracket? (layout : Layout) (token : Token) : Option Layout :=
  layout.dropKey?.map fun layout =>
    { layout.push token with
      possibleKey := layout.outerKeys.head?.join
      outerKeys := layout.outerKeys.tail
      keyAllowed := false }

def comma? (layout : Layout) : Option Layout :=
  layout.dropKey?.map fun layout => (layout.push .comma).allowKey true

/-- Outside brackets a dash or a question mark may stand only where a key may. -/
def blockEntry? (layout : Layout) (column : Nat) (block token : Token) : Option Layout :=
  if !layout.inBrackets && !layout.keyAllowed then none
  else (layout.openBlock column layout.count block).dropKey?.map (·.push token)

def dash? (layout : Layout) (column : Nat) : Option Layout :=
  (layout.blockEntry? column .blockList .dash).map (·.allowKey true)

def questionMark? (layout : Layout) (column : Nat) : Option Layout :=
  (layout.blockEntry? column .blockRecord .key).map (·.allowKey !layout.inBrackets)

/-- A colon ends the key that may have started; without one it stands where a key may. -/
def colon? (layout : Layout) (column : Nat) : Option Layout :=
  match layout.possibleKey with
  | some key =>
      let layout :=
        (layout.insert key.position .key).openBlock key.place.column key.position .blockRecord
      some (({ layout with possibleKey := none }.allowKey false).push .colon)
  | none =>
      if layout.inBrackets then some ((layout.allowKey false).push .colon)
      else if layout.keyAllowed then
        some ((layout.openBlock column layout.count .blockRecord).push .colon)
      else none

/-- A mark of documents closes all blocks. -/
def documentMark? (layout : Layout) (token : Token) : Option Layout :=
  (layout.closeBlocks fun _ => false).dropKey?.map fun layout =>
    (layout.push token).allowKey false

def scalar? (layout : Layout) (place : Place) : Option Layout :=
  (layout.markKey? place).map (·.allowKey false)

def lineBreak (layout : Layout) : Layout :=
  layout.allowKey (layout.keyAllowed || !layout.inBrackets)

def finish? (layout : Layout) (place : Place) : Option (List Token) := do
  let layout ← layout.dropLostKey? place
  let layout ← (layout.closeBlocks fun _ => false).dropKey?
  return layout.tokens.reverse

end Layout

end DocMarkup.Data.Yaml
