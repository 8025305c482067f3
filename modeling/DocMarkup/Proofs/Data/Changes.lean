import DocMarkup.Data.Repository
import DocMarkup.Proofs.Data.Values

/-!
Changes of a description that do not count.

In each record the fields may stand in any order, there may be fields that nobody knows, and a
field may be left out that has its default. All of it goes for records within records too.
-/

namespace DocMarkup

open Data

namespace EntityKind

/-- The fields of a kind, as they are if nothing is said about them. -/
def defaults : EntityKind → Fields
  | classType _ _ _ => (classType none [] none).ownFields
  | interfaceType _ _ => (interfaceType [] none).ownFields
  | callback _ => (callback {}).ownFields
  | function _ => (function {}).ownFields
  | virtualFunction _ => (virtualFunction {}).ownFields
  | signal _ => (signal {}).ownFields
  | property _ => (property {}).ownFields
  | _ => []

end EntityKind

/-- What a record describes. -/
inductive Shape
  | parameter
  | declaration (kind : EntityKind)
  | space
  | repository

namespace Shape

def required : Shape → List String
  | parameter => ["name"]
  | declaration _ => ["name", "kind"]
  | space => ["name", "version"]
  | repository => ["namespace"]

/-- The fields that can be left out, with what they are then. Those of a declaration and those of
its kind stand in one record. -/
def defaults : Shape → Fields
  | parameter => [("varargs", .flag false)]
  | declaration kind =>
      ("symbol", .null) :: ("private", .flag false) :: ("introspectable", .flag true) ::
        ("children", .list []) :: kind.defaults
  | space => [("identifier_prefixes", .list []), ("symbol_prefixes", .list []),
      ("exported_packages", .list []), ("entities", .list [])]
  | repository => [("includes", .list [])]

def Knows (shape : Shape) (name : String) : Prop :=
  name ∈ shape.required ∨ (shape.defaults.lookup name).isSome = true

/-- The fields in the order that they have where a list stands for the record. -/
def places : Shape → List String
  | parameter => ["name", "varargs"]
  | declaration _ => []
  | space => NamespaceDeclaration.fieldNames
  | repository => ["namespace", "includes"]

/-- What a record says of the kind of its declaration is that it is this one, if it can be read
at all. -/
def Admits : Shape → Fields → Prop
  | declaration kind, fields =>
      ∀ read ∈ fields.required? "kind" EntityKind.reader?,
        EntityKind.readers.lookup kind.kindName = some read
  | _, _ => True

end Shape

namespace Data.Value

def among (before after : List Value) (value : Value) : Value :=
  list (before ++ value :: after)

end Data.Value

namespace Shape

/-- A field that has a record in it, with what is around the record in the value of the field. -/
inductive Holds : Shape → String → Shape → (Value → Value) → Prop
  | space : Holds repository "namespace" space id
  | included (before after : List Value) :
      Holds repository "includes" space (Value.among before after)
  | entity (kind : EntityKind) (before after : List Value) :
      Holds space "entities" (declaration kind) (Value.among before after)
  | child (kind inner : EntityKind) (before after : List Value) :
      Holds (declaration kind) "children" (declaration inner) (Value.among before after)
  | parameter (kind : EntityKind) (before after : List Value) :
      Holds (declaration kind) "parameters" parameter (Value.among before after)
  | receiver (kind : EntityKind) : Holds (declaration kind) "instance_parameter" parameter id

def heldNames : List String :=
  ["namespace", "includes", "entities", "children", "parameters", "instance_parameter"]

theorem Holds.name_mem {shape inner : Shape} {name : String} {around : Value → Value}
    (h : shape.Holds name inner around) : name ∈ heldNames := by
  cases h <;> simp [heldNames]

end Shape

/-- One change of a record, or of a record in it, that does not count. What stands in a field that
nobody knows does not count either: the field can go, and come back with something else. -/
inductive Changes : Shape → Value → Value → Prop
  | reorder {shape : Shape} {fields others : Fields} (h : fields.Perm others) :
      Changes shape (.ofFields fields) (.ofFields others)
  | add {shape : Shape} {fields : Fields} {name : String} {value : Value}
      (hadmits : shape.Admits fields) (hname : ¬ shape.Knows name) (hvalue : value.IsJson) :
      Changes shape (.ofFields fields) (.ofFields ((name, value) :: fields))
  | leaveOut {shape : Shape} {fields : Fields} {name : String} {value : Value}
      (hadmits : shape.Admits ((name, value) :: fields))
      (hdefault : shape.defaults.lookup name = some value)
      (honce : name ∉ fields.map Prod.fst) :
      Changes shape (.ofFields ((name, value) :: fields)) (.ofFields fields)
  | field {shape inner : Shape} {name : String} {around : Value → Value} {value other : Value}
      (fields : Fields) (hholds : shape.Holds name inner around)
      (h : Changes inner value other) :
      Changes shape (.ofFields ((name, around value) :: fields))
        (.ofFields ((name, around other) :: fields))
  | place {shape inner : Shape} {name : String} {around : Value → Value} {value other : Value}
      (before after : List Value) (hname : shape.places[before.length]? = some name)
      (hholds : shape.Holds name inner around) (h : Changes inner value other) :
      Changes shape (Value.among before after (around value))
        (Value.among before after (around other))

theorem Shape.isJson_of_default {shape : Shape} {field : String × Value}
    (h : field ∈ shape.defaults) : field.2.IsJson := by
  have hnone : (Value.list []).IsJson := .list nofun
  revert field
  cases shape with
  | declaration kind =>
      cases kind <;>
        simp [Shape.defaults, EntityKind.defaults, EntityKind.ownFields, Callable.toFields,
          PropertyAccess.toFields, textsValue, optionalTextValue, hnone, Value.IsJson.null,
          Value.IsJson.flag]
  | _ => simp [Shape.defaults, hnone, Value.IsJson.flag]

theorem Shape.Holds.isJson_congr {shape inner : Shape} {name : String} {around : Value → Value}
    {value other : Value} (hholds : shape.Holds name inner around)
    (h : value.IsJson ↔ other.IsJson) : (around value).IsJson ↔ (around other).IsJson := by
  cases hholds with
  | space | receiver => exact h
  | included | entity | child | parameter =>
      simp only [Value.among, Value.isJson_list_iff, List.forall_mem_append,
        List.forall_mem_cons, h]

theorem Changes.isJson_iff {shape : Shape} {value other : Value} (h : Changes shape value other) :
    value.IsJson ↔ other.IsJson := by
  induction h with
  | reorder h =>
      simp only [Value.isJson_ofFields_iff, h.mem_iff]
  | add _ _ hvalue =>
      simp only [Value.isJson_ofFields_iff, List.forall_mem_cons, hvalue, true_and]
  | leaveOut _ hdefault _ =>
      obtain ⟨before, after, heq, _⟩ := List.lookup_eq_some_iff.mp hdefault
      have hmem := heq ▸ List.mem_append_right before List.mem_cons_self
      simp only [Value.isJson_ofFields_iff, List.forall_mem_cons,
        Shape.isJson_of_default hmem, true_and]
  | field fields hholds _ ih =>
      simp only [Value.isJson_ofFields_iff, List.forall_mem_cons, hholds.isJson_congr ih]
  | place before after _ hholds _ ih =>
      simp only [Value.among, Value.isJson_list_iff, List.forall_mem_append,
        List.forall_mem_cons, hholds.isJson_congr ih]

end DocMarkup
