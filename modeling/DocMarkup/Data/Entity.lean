import DocMarkup.Data.Decode
import DocMarkup.Repository.Entity

namespace DocMarkup

open Data

def optionalTextValue : Option String → Value
  | some text => .text text
  | none => .null

def textsValue (texts : List String) : Value :=
  .list (texts.map .text)

namespace Parameter

def toValue (parameter : Parameter) : Value :=
  .ofFields [("name", .text parameter.name), ("varargs", .flag parameter.varargs)]

def ofValue? (value : Value) : Option Parameter := do
  let fields ← value.fieldsIn? true ["name", "varargs"]
  return {
    name := ← fields.required? "name" Value.text?
    varargs := ← fields.optional? "varargs" false Value.flag? }

end Parameter

namespace Callable

def toFields (callable : Callable) : Fields := [
  ("parameters", .list (callable.parameters.map Parameter.toValue)),
  ("instance_parameter",
    match callable.instanceParameter with
    | some parameter => parameter.toValue
    | none => .null),
  ("is_method", .flag callable.isMethod),
  ("is_constructor", .flag callable.isConstructor),
  ("shadows", optionalTextValue callable.shadows),
  ("shadowed_by", optionalTextValue callable.shadowedBy)]

def ofFields? (fields : Fields) : Option Callable := do
  let text? := Value.optional? Value.text?
  return {
    parameters :=
      ← fields.optional? "parameters" [] fun value => do
        (← value.items?).mapM Parameter.ofValue?
    instanceParameter :=
      ← fields.optional? "instance_parameter" none (Value.optional? Parameter.ofValue?)
    isMethod := ← fields.optional? "is_method" false Value.flag?
    isConstructor := ← fields.optional? "is_constructor" false Value.flag?
    shadows := ← fields.optional? "shadows" none text?
    shadowedBy := ← fields.optional? "shadowed_by" none text? }

end Callable

namespace PropertyAccess

def toFields (access : PropertyAccess) : Fields := [
  ("readable", .flag access.readable),
  ("writable", .flag access.writable),
  ("construct", .flag access.construct),
  ("construct_only", .flag access.constructOnly)]

def ofFields? (fields : Fields) : Option PropertyAccess := do
  return {
    readable := ← fields.optional? "readable" true Value.flag?
    writable := ← fields.optional? "writable" false Value.flag?
    construct := ← fields.optional? "construct" false Value.flag?
    constructOnly := ← fields.optional? "construct_only" false Value.flag? }

end PropertyAccess

namespace EntityKind

def classOfFields? (fields : Fields) : Option EntityKind := do
  let text? := Value.optional? Value.text?
  return .classType (← fields.optional? "parent_type" none text?)
    (← fields.optional? "interfaces" [] Value.texts?)
    (← fields.optional? "gtype_name" none text?)

def interfaceOfFields? (fields : Fields) : Option EntityKind := do
  return .interfaceType (← fields.optional? "prerequisites" [] Value.texts?)
    (← fields.optional? "gtype_name" none (Value.optional? Value.text?))

def readers : List (String × (Fields → Option EntityKind)) := [
  ("class", classOfFields?),
  ("interface", interfaceOfFields?),
  ("record", fun _ => some record),
  ("boxed", fun _ => some boxed),
  ("union", fun _ => some unionType),
  ("enum", fun _ => some enumeration),
  ("bitfield", fun _ => some bitfield),
  ("alias", fun _ => some typeAlias),
  ("constant", fun _ => some constant),
  ("callback", fun fields => (Callable.ofFields? fields).map callback),
  ("function", fun fields => (Callable.ofFields? fields).map function),
  ("vfunc", fun fields => (Callable.ofFields? fields).map virtualFunction),
  ("signal", fun fields => (Callable.ofFields? fields).map signal),
  ("property", fun fields => (PropertyAccess.ofFields? fields).map property),
  ("field", fun _ => some field),
  ("member", fun _ => some member),
  ("doc_section", fun _ => some docSection)]

def kindName : EntityKind → String
  | classType _ _ _ => "class"
  | interfaceType _ _ => "interface"
  | record => "record"
  | boxed => "boxed"
  | unionType => "union"
  | enumeration => "enum"
  | bitfield => "bitfield"
  | typeAlias => "alias"
  | constant => "constant"
  | callback _ => "callback"
  | function _ => "function"
  | virtualFunction _ => "vfunc"
  | signal _ => "signal"
  | property _ => "property"
  | field => "field"
  | member => "member"
  | docSection => "doc_section"

def ownFields : EntityKind → Fields
  | classType parent interfaces typeName => [
      ("parent_type", optionalTextValue parent),
      ("interfaces", textsValue interfaces),
      ("gtype_name", optionalTextValue typeName)]
  | interfaceType prerequisites typeName => [
      ("prerequisites", textsValue prerequisites),
      ("gtype_name", optionalTextValue typeName)]
  | callback callable => callable.toFields
  | function callable => callable.toFields
  | virtualFunction callable => callable.toFields
  | signal callable => callable.toFields
  | property access => access.toFields
  | _ => []

def toFields (kind : EntityKind) : Fields :=
  ("kind", .text kind.kindName) :: kind.ownFields

/-- A kind is named, or given by its place among the kinds. -/
def reader? : Value → Option (Fields → Option EntityKind)
  | .text name => readers.lookup name
  | .natural place => readers[place]?.map Prod.snd
  | _ => none

def ofFields? (fields : Fields) : Option EntityKind := do
  (← fields.required? "kind" reader?) fields

end EntityKind

namespace EntityInfo

/-- The fields that every entity has beside those of its kind. -/
def commonNames : List String :=
  ["name", "symbol", "private", "introspectable", "children"]

def toFields (info : EntityInfo) : Fields :=
  [("name", .text info.name), ("symbol", optionalTextValue info.symbol),
    ("private", .flag info.isPrivate), ("introspectable", .flag info.isIntrospectable)] ++
    info.kind.toFields

/-- All fields that are not common count for the kind. They are nested at most `limit` deep,
whether the kind knows them or not. -/
def ofFields? (limit : Nat) (fields : Fields) : Option EntityInfo := do
  let others := fields.filter fun field => field.1 ∉ commonNames
  return {
    name := ← fields.required? "name" Value.text?
    symbol := ← fields.optional? "symbol" none (Value.optional? Value.text?)
    isPrivate := ← fields.optional? "private" false Value.flag?
    isIntrospectable := ← fields.optional? "introspectable" true Value.flag?
    kind := ← EntityKind.ofFields? (← others.mapM fun (name, value) => do
      return (name, ← value.settled? limit)) }

end EntityInfo

namespace Declaration

mutual

def toValue : Declaration → Value
  | ⟨info, children⟩ => .ofFields (info.toFields ++ [("children", .list (toValues children))])

def toValues : List Declaration → List Value
  | [] => []
  | decl :: rest => toValue decl :: toValues rest

end

/-- Reads a declaration that is nested at most `limit` deep. Its fields have no places. -/
def ofValue? : (limit : Nat) → Value → Option Declaration
  | 0, _ => none
  | limit + 1, value => do
      let fields ← value.fields? []
      return {
        toEntityInfo := ← EntityInfo.ofFields? limit fields
        children :=
          ← fields.optional? "children" [] fun value => do
            match limit with
            | 0 => if value.isBlank then some [] else none
            | inner + 1 => (← value.items?).mapM (ofValue? inner) }

end Declaration

end DocMarkup
