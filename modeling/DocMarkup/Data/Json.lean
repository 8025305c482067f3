import DocMarkup.Data.Decimal
import DocMarkup.Data.Value

/-!
Reading JSON.

The text is cut into lexemes, and a machine with a stack of open lists and records puts the
value together. Text with half a surrogate pair and numbers that are too large are broken:
they may stand in a field that nobody reads.
-/

namespace DocMarkup.Data.Json

inductive Lexeme
  | openList
  | closeList
  | openRecord
  | closeRecord
  | colon
  | comma
  | text (value : Option String)
  | scalar (value : Value)
  deriving Repr

inductive Piece
  | char (char : Char)
  | code (code : Nat)

def isLeading (code : Nat) : Bool :=
  0xD800 ≤ code && code < 0xDC00

def isTrailing (code : Nat) : Bool :=
  0xDC00 ≤ code && code < 0xE000

/-- The characters of the pieces, of which two halves of a surrogate pair make one. -/
def joinPieces : List Piece → Option (List Char)
  | [] => some []
  | .char char :: rest => (joinPieces rest).map (char :: ·)
  | .code first :: rest =>
      if isLeading first then
        match rest with
        | .code second :: rest =>
            if isTrailing second then
              (joinPieces rest).map
                (Char.ofNat (0x10000 + (first - 0xD800) * 0x400 + (second - 0xDC00)) :: ·)
            else none
        | _ => none
      else if isTrailing first then none
      else (joinPieces rest).map (Char.ofNat first :: ·)

def hexValue? (char : Char) : Option Nat :=
  if char.isDigit then some (char.toNat - '0'.toNat)
  else if 'a' ≤ char ∧ char ≤ 'f' then some (char.toNat - 'a'.toNat + 10)
  else if 'A' ≤ char ∧ char ≤ 'F' then some (char.toNat - 'A'.toNat + 10)
  else none

def escaped? : Char → Option Char
  | '"' => some '"'
  | '\\' => some '\\'
  | '/' => some '/'
  | 'b' => some '\x08'
  | 'f' => some '\x0c'
  | 'n' => some '\n'
  | 'r' => some '\r'
  | 't' => some '\t'
  | _ => none

def isBare (char : Char) : Bool :=
  char.isAlphanum || char == '+' || char == '-' || char == '.'

/-- A number without leading zeros, whose point has digits on both sides. Its size is that of
a word times a power of ten. -/
def number? (bare : List Char) : Option Value :=
  let (negative, digits) :=
    match bare with
    | '-' :: digits => (true, digits)
    | digits => (false, digits)
  match Decimal.parts? digits with
  | none => none
  | some parts =>
      if parts.whole = [] ∨ parts.fraction = some [] ∨
          (parts.whole.head? = some '0' ∧ parts.whole ≠ ['0']) then none
      else if !negative && parts.whole == digits && Decimal.digitsValue digits < UInt64.size then
        some (.natural (Decimal.digitsValue digits))
      else if (Decimal.clipped parts).isFiniteProduct then some .number
      else some .broken

def scalar? (bare : List Char) : Option Value :=
  match String.ofList bare with
  | "null" => some .null
  | "true" => some (.flag true)
  | "false" => some (.flag false)
  | _ => number? bare

def mark? : Char → Option Lexeme
  | '[' => some .openList
  | ']' => some .closeList
  | '\x7b' => some .openRecord
  | '\x7d' => some .closeRecord
  | ':' => some .colon
  | ',' => some .comma
  | _ => none

def isSpace (char : Char) : Bool :=
  char == ' ' || char == '\n' || char == '\t' || char == '\r'

/-- Where in the text a character is met; what was read so far is kept last first. -/
inductive Place
  | between
  | bare (read : List Char)
  | quoted (read : List Piece)

def lexemes? : Place → List Char → Option (List Lexeme)
  | .between, [] => some []
  | .bare read, [] => (scalar? read.reverse).map fun value => [.scalar value]
  | .quoted _, [] => none
  | .between, char :: rest =>
      if isSpace char then lexemes? .between rest
      else if char = '"' then lexemes? (.quoted []) rest
      else if isBare char then lexemes? (.bare [char]) rest
      else
        match mark? char with
        | some mark => (lexemes? .between rest).map (mark :: ·)
        | none => none
  | .bare read, char :: rest =>
      if isBare char then lexemes? (.bare (char :: read)) rest
      else
        match scalar? read.reverse with
        | none => none
        | some value =>
            if isSpace char then (lexemes? .between rest).map (.scalar value :: ·)
            else
              match mark? char with
              | some mark => (lexemes? .between rest).map (.scalar value :: mark :: ·)
              | none => none
  | .quoted read, '\\' :: 'u' :: first :: second :: third :: fourth :: rest =>
      match hexValue? first, hexValue? second, hexValue? third, hexValue? fourth with
      | some first, some second, some third, some fourth =>
          let code := ((first * 16 + second) * 16 + third) * 16 + fourth
          lexemes? (.quoted (.code code :: read)) rest
      | _, _, _, _ => none
  | .quoted read, '\\' :: char :: rest =>
      match escaped? char with
      | some char => lexemes? (.quoted (.char char :: read)) rest
      | none => none
  | .quoted read, char :: rest =>
      if char = '"' then
        let text := (joinPieces read.reverse).map String.ofList
        (lexemes? .between rest).map (.text text :: ·)
      else if char.toNat < 0x20 ∨ char = '\\' then none
      else lexemes? (.quoted (.char char :: read)) rest

inductive Frame
  | list (items : List Value)
  | record (fields : List (Value × Value))
  /-- A record whose next field has this key. -/
  | field (key : Value) (fields : List (Value × Value))

inductive Expecting
  | value
  | valueOrEnd
  | key
  | keyOrEnd
  | colon
  | commaOrEnd
  | nothing (value : Value)

def deliver (value : Value) : List Frame → List Frame × Expecting
  | .list items :: stack => (.list (value :: items) :: stack, .commaOrEnd)
  | .field key fields :: stack => (.record ((key, value) :: fields) :: stack, .commaOrEnd)
  | stack => (stack, .nothing value)

def textValue : Option String → Value
  | some text => .text text
  | none => .broken

def Expecting.allowsValue : Expecting → Bool
  | value => true
  | valueOrEnd => true
  | _ => false

def Expecting.allowsKey : Expecting → Bool
  | key => true
  | keyOrEnd => true
  | _ => false

/-- What a lexeme does to the stack, if it may stand where it does. -/
def step? (stack : List Frame) (expecting : Expecting) (lexeme : Lexeme) :
    Option (List Frame × Expecting) :=
  match lexeme, expecting, stack with
  | .text text, expecting, stack =>
      match stack with
      | .record fields :: below =>
          if expecting.allowsKey then some (.field (textValue text) fields :: below, .colon)
          else none
      | stack => if expecting.allowsValue then some (deliver (textValue text) stack) else none
  | .scalar value, expecting, stack =>
      if expecting.allowsValue then some (deliver value stack) else none
  | .openList, expecting, stack =>
      if expecting.allowsValue then some (.list [] :: stack, .valueOrEnd) else none
  | .openRecord, expecting, stack =>
      if expecting.allowsValue then some (.record [] :: stack, .keyOrEnd) else none
  | .closeList, .valueOrEnd, .list items :: stack => some (deliver (.list items.reverse) stack)
  | .closeList, .commaOrEnd, .list items :: stack => some (deliver (.list items.reverse) stack)
  | .closeRecord, .keyOrEnd, .record fields :: stack =>
      some (deliver (.record fields.reverse) stack)
  | .closeRecord, .commaOrEnd, .record fields :: stack =>
      some (deliver (.record fields.reverse) stack)
  | .colon, .colon, stack => some (stack, .value)
  | .comma, .commaOrEnd, .list items :: stack => some (.list items :: stack, .value)
  | .comma, .commaOrEnd, .record fields :: stack => some (.record fields :: stack, .key)
  | _, _, _ => none

def value? (stack : List Frame) (expecting : Expecting) : List Lexeme → Option Value
  | [] =>
      match expecting with
      | .nothing value => some value
      | _ => none
  | lexeme :: rest => do
      let (stack, expecting) ← step? stack expecting lexeme
      value? stack expecting rest

def read? (text : String) : Option Value := do
  value? [] .value (← lexemes? .between text.toList)

end DocMarkup.Data.Json
