namespace DocMarkup.Data

inductive Value
  | null
  | flag (value : Bool)
  | natural (value : Nat)
  /-- A number that is no natural number of at most 64 bits. -/
  | number
  | text (value : String)
  /-- A scalar without quotes, which reads as text or as what its spelling means. -/
  | plain (spelling : String)
  | list (items : List Value)
  /-- Fields with their keys, which most often are text. -/
  | record (fields : List (Value × Value))
  /-- A value that can be passed over but not be read. -/
  | broken
  deriving Repr, Inhabited

abbrev Fields := List (String × Value)

namespace Value

def ofFields (fields : Fields) : Value :=
  record (fields.map fun (name, value) => (text name, value))

/-- A scalar without quotes and without spelling, as where a value is left out. -/
def blank : Value :=
  plain ""

end Value

end DocMarkup.Data
