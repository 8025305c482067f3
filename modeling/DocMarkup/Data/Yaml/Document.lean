import DocMarkup.Data.Yaml.Layout

/-!
From the tokens of YAML to the value of its document.

What is open is a stack of lists and records, each with what may come next in it. A token
that cannot belong to the innermost one ends it, or shows that a value was left out there,
and is then looked at again.
-/

namespace DocMarkup.Data.Yaml

inductive ListStyle
  | block
  /-- Dashes right below the key that the list belongs to. -/
  | underKey
  | brackets
  deriving DecidableEq, Repr

inductive RecordStyle
  | block
  | brackets
  /-- A single field as an item of a list in brackets. -/
  | single
  deriving DecidableEq, Repr

inductive Frame
  | item (style : ListStyle) (items : List Value)
  | afterItem (style : ListStyle) (items : List Value)
  | field (fields : List (Value × Value))
  | loneKey (fields : List (Value × Value))
  | key (style : RecordStyle) (fields : List (Value × Value))
  | afterKey (style : RecordStyle) (fields : List (Value × Value)) (key : Value)
  | value (style : RecordStyle) (fields : List (Value × Value)) (key : Value)
  | afterField (style : RecordStyle) (fields : List (Value × Value))
  deriving Repr

/-- A document that is being read, with what is open from the innermost on, or its value. -/
inductive Document
  | reading (stack : List Frame)
  | done (value : Value)
  deriving Repr

namespace Token

def isDash : Token → Bool
  | dash => true
  | _ => false

def isColon : Token → Bool
  | colon => true
  | _ => false

def isDocumentEnd : Token → Bool
  | documentEnd => true
  | _ => false

def omitsItem : ListStyle → Token → Bool
  | .block, dash => true
  | .block, blockEnd => true
  | .underKey, dash => true
  | .underKey, key => true
  | .underKey, colon => true
  | .underKey, blockEnd => true
  | _, _ => false

def omitsKey : RecordStyle → Token → Bool
  | .block, key => true
  | .block, colon => true
  | .block, blockEnd => true
  | .brackets, colon => true
  | .brackets, comma => true
  | .brackets, closeRecord => true
  | _, _ => false

def omitsValue : RecordStyle → Token → Bool
  | .block, key => true
  | .block, colon => true
  | .block, blockEnd => true
  | .brackets, comma => true
  | .brackets, closeRecord => true
  | .single, comma => true
  | .single, closeList => true
  | _, _ => false

end Token

inductive Room
  | brackets
  | block
  /-- Where also a list right below its key may stand. -/
  | underKey
  deriving DecidableEq, Repr

def ListStyle.room : ListStyle → Room
  | brackets => .brackets
  | _ => .block

def RecordStyle.room : RecordStyle → Room
  | block => .underKey
  | _ => .brackets

namespace Document

def deliver (value : Value) : List Frame → Document
  | [] => done value
  | .item style items :: outer => reading (.afterItem style (value :: items) :: outer)
  | .loneKey fields :: outer =>
      reading (.afterField .brackets ((value, .blank) :: fields) :: outer)
  | .key style fields :: outer => reading (.afterKey style fields value :: outer)
  | .value .single fields key :: outer =>
      deliver (.record ((key, value) :: fields).reverse) outer
  | .value style fields key :: outer =>
      reading (.afterField style ((key, value) :: fields) :: outer)
  | frame :: outer => reading (frame :: outer)

/-- What a token makes of the stack before it is taken, if the innermost frame does not wait
for such a token. -/
def leave? (token : Token) : List Frame → Option Document
  | .item style items :: outer =>
      if token.omitsItem style then some (deliver .blank (.item style items :: outer)) else none
  | .afterItem .underKey items :: outer =>
      if token.isDash then none else some (deliver (.list items.reverse) outer)
  | .key style fields :: outer =>
      if token.omitsKey style then some (deliver .blank (.key style fields :: outer)) else none
  | .afterKey style fields key :: outer =>
      if token.isColon then none
      else some (deliver .blank (.value style fields key :: outer))
  | .value style fields key :: outer =>
      if token.omitsValue style then some (deliver .blank (.value style fields key :: outer))
      else none
  | _ => none

def start? (room : Room) (stack : List Frame) : Token → Option Document
  | .scalar value => some (deliver value stack)
  | .openList => some (reading (.item .brackets [] :: stack))
  | .openRecord => some (reading (.field [] :: stack))
  | .blockList =>
      if room = .brackets then none else some (reading (.afterItem .block [] :: stack))
  | .blockRecord =>
      if room = .brackets then none else some (reading (.afterField .block [] :: stack))
  | .dash => if room = .underKey then some (reading (.item .underKey [] :: stack)) else none
  | _ => none

/-- What is open after a token for which the innermost frame waits. A single field that starts
with the mark of its value or with its end has no key, and the mark is used up. -/
def take? (token : Token) : List Frame → Option Document
  | [] => start? .block [] token
  | .item style items :: outer =>
      match style, token with
      | .brackets, .closeList => some (deliver (.list items.reverse) outer)
      | .brackets, .key => some (reading (.key .single [] :: .item style items :: outer))
      | style, token => start? style.room (.item style items :: outer) token
  | .afterItem style items :: outer =>
      match style, token with
      | .block, .dash => some (reading (.item style items :: outer))
      | .underKey, .dash => some (reading (.item style items :: outer))
      | .brackets, .comma => some (reading (.item style items :: outer))
      | .block, .blockEnd => some (deliver (.list items.reverse) outer)
      | .brackets, .closeList => some (deliver (.list items.reverse) outer)
      | _, _ => none
  | .field fields :: outer =>
      match token with
      | .closeRecord => some (deliver (.record fields.reverse) outer)
      | .key => some (reading (.key .brackets fields :: outer))
      | token => start? .brackets (.loneKey fields :: outer) token
  | .loneKey _ :: _ => none
  | .key style fields :: outer =>
      match style, token with
      | .single, .colon => some (deliver .blank (.key style fields :: outer))
      | .single, .comma => some (deliver .blank (.key style fields :: outer))
      | .single, .closeList => some (deliver .blank (.key style fields :: outer))
      | style, token => start? style.room (.key style fields :: outer) token
  | .afterKey style fields key :: outer =>
      match token with
      | .colon => some (reading (.value style fields key :: outer))
      | _ => none
  | .value style fields key :: outer =>
      start? style.room (.value style fields key :: outer) token
  | .afterField style fields :: outer =>
      match style, token with
      | .block, .key => some (reading (.key style fields :: outer))
      | .block, .blockEnd => some (deliver (.record fields.reverse) outer)
      | .brackets, .comma => some (reading (.field fields :: outer))
      | .brackets, .closeRecord => some (deliver (.record fields.reverse) outer)
      | _, _ => none

/-- How often a frame and what it becomes may be left. -/
def frameSlack : Frame → Nat
  | .item _ _ => 2
  | .afterItem _ _ => 1
  | .field _ => 1
  | .loneKey _ => 2
  | .key _ _ => 4
  | .afterKey _ _ _ => 3
  | .value _ _ _ => 2
  | .afterField _ _ => 1

def stackSlack : List Frame → Nat
  | [] => 0
  | frame :: outer => frameSlack frame + stackSlack outer

def slack : Document → Nat
  | reading stack => stackSlack stack
  | done _ => 0

theorem slack_deliver_le (value : Value) (stack : List Frame) :
    (deliver value stack).slack ≤ stackSlack stack := by
  fun_induction deliver value stack with
  | case5 _ _ _ _ ih => simp only [stackSlack, frameSlack]; omega
  | _ => simp only [slack, stackSlack, frameSlack]; omega

theorem slack_deliver_value_lt (value : Value) (style : RecordStyle)
    (fields : List (Value × Value)) (key : Value) (outer : List Frame) :
    (deliver value (.value style fields key :: outer)).slack < 2 + stackSlack outer := by
  cases style with
  | single => exact Nat.lt_of_le_of_lt (slack_deliver_le _ outer) (by omega)
  | _ => simp only [deliver, slack, stackSlack, frameSlack]; omega

theorem slack_leave_lt {token : Token} {stack : List Frame} {document : Document}
    (h : leave? token stack = some document) : document.slack < stackSlack stack := by
  unfold leave? at h
  split at h <;> simp only [Option.ite_none_right_eq_some, Option.ite_none_left_eq_some,
    Option.some.injEq, reduceCtorEq] at h
  · obtain ⟨_, rfl⟩ := h
    simp only [deliver, slack, stackSlack, frameSlack]; omega
  · obtain ⟨_, rfl⟩ := h
    exact Nat.lt_of_le_of_lt (slack_deliver_le _ _) (by simp only [stackSlack, frameSlack]; omega)
  · obtain ⟨_, rfl⟩ := h
    simp only [deliver, slack, stackSlack, frameSlack]; omega
  · obtain ⟨_, rfl⟩ := h
    exact Nat.lt_trans (slack_deliver_value_lt ..) (by simp only [stackSlack, frameSlack]; omega)
  · obtain ⟨_, rfl⟩ := h
    exact slack_deliver_value_lt ..

/-- What is open after a token. After the value there may only be marks of the end. -/
def step? (document : Document) (token : Token) : Option Document :=
  match document with
  | done value => if token.isDocumentEnd then some (done value) else none
  | reading stack =>
      match _hleave : leave? token stack with
      | some document => step? document token
      | none => take? token stack
termination_by document.slack
decreasing_by exact slack_leave_lt _hleave

def value? : Document → Option Value
  | reading _ => none
  | done value => some value

def read? : List Token → Option Value
  | [] => some .blank
  | .documentStart :: tokens =>
      if tokens.all Token.isDocumentEnd then some .blank
      else (tokens.foldlM step? (reading [])).bind value?
  | tokens => (tokens.foldlM step? (reading [])).bind value?

end Document

end DocMarkup.Data.Yaml
