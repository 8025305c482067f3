import DocMarkup.Data.Plain

/-!
Reading declarations out of data.

A record may have fields that the declaration does not know, but a field that it knows only
once. A notation limits how deep lists and records may be nested, and decides whether the
fields of a declaration may stand in a list.
-/

namespace DocMarkup.Data

/-- What files of a notation may look like. -/
structure Dialect where
  /-- How deep lists and records that are read may be nested. -/
  limit : Nat
  /-- Whether a list may stand for a record, with the fields in their order. -/
  positional : Bool
  deriving DecidableEq, Repr

namespace Dialect

def json : Dialect := ⟨127, true⟩

def yaml : Dialect := ⟨128, false⟩

end Dialect

namespace Value

def text? : Value → Option String
  | text value => some value
  | plain spelling => some spelling
  | _ => none

def flag? : Value → Option Bool
  | flag value => some value
  | plain spelling => Plain.flag? spelling
  | _ => none

def optional? (decode : Value → Option α) : Value → Option (Option α)
  | null => some none
  | plain spelling =>
      if Plain.isNull spelling then some none else (decode (plain spelling)).map some
  | value => (decode value).map some

def isBlank : Value → Bool
  | plain "" => true
  | _ => false

def items? : Value → Option (List Value)
  | list items => some items
  | plain "" => some []
  | _ => none

/-- The name that a key stands for: a number is the place of a field among `names`, and
beyond them it stands for none. -/
def keyName? (names : List String) : Value → Option (Option String)
  | text name => some (some name)
  | plain spelling => some (some spelling)
  | natural place => some names[place]?
  | _ => none

def namedFields? (names : List String) : List (Value × Value) → Option Fields
  | [] => some []
  | (key, value) :: rest => do
      let name ← key.keyName? names
      let fields ← namedFields? names rest
      return (name.map (·, value)).toList ++ fields

def fields? (names : List String) : Value → Option Fields
  | record fields => namedFields? names fields
  | plain "" => some []
  | _ => none

/-- The fields of a record, or of a list in the order of `names` if `positional` holds. -/
def fieldsIn? (positional : Bool) (names : List String) : Value → Option Fields
  | list items =>
      if positional ∧ items.length ≤ names.length then some (names.zip items) else none
  | value => value.fields? names

def texts? (value : Value) : Option (List String) :=
  value.items?.bind (·.mapM text?)

end Value

namespace Fields

def value? (fields : Fields) (name : String) : Option (Option Value) :=
  match fields.filter fun field => field.1 == name with
  | [] => some none
  | [(_, value)] => some (some value)
  | _ => none

def required? (fields : Fields) (name : String) (decode : Value → Option α) : Option α := do
  decode (← ← fields.value? name)

def optional? (fields : Fields) (name : String) (default : α) (decode : Value → Option α) :
    Option α := do
  match ← fields.value? name with
  | some value => decode value
  | none => return default

end Fields

namespace Value

mutual

/-- The value with plain scalars taken for what they mean, if all of it can be read and is
nested at most `limit` deep. -/
def settled? : (limit : Nat) → Value → Option Value
  | 0, list _ => none
  | limit + 1, list items => (settledAll? limit items).map list
  | 0, record _ => none
  | limit + 1, record fields => (settledFields? limit fields).map record
  | _, plain spelling =>
      match Plain.value spelling with
      | broken => none
      | value => some value
  | _, broken => none
  | _, value => some value

def settledAll? (limit : Nat) : List Value → Option (List Value)
  | [] => some []
  | item :: rest => do return (← settled? limit item) :: (← settledAll? limit rest)

def settledFields? (limit : Nat) : List (Value × Value) → Option (List (Value × Value))
  | [] => some []
  | (key, value) :: rest => do
      return (← settled? limit key, ← settled? limit value) :: (← settledFields? limit rest)

end

end Value

end DocMarkup.Data
