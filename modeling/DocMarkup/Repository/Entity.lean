namespace DocMarkup

structure Parameter where
  name : String
  varargs : Bool := false
  deriving DecidableEq, Repr

namespace Parameter

def dots : Parameter := ⟨"...", true⟩

end Parameter

structure Callable where
  parameters : List Parameter := []
  /-- The instance that a method is called on, which is not among the parameters. -/
  instanceParameter : Option Parameter := none
  isMethod : Bool := false
  isConstructor : Bool := false
  /-- The public name in whose place the callable stands. -/
  shadows : Option String := none
  shadowedBy : Option String := none
  deriving DecidableEq, Repr

namespace Callable

def ofNames (names : List String) : Callable :=
  { parameters := names.map fun name => ⟨name, false⟩ }

def asMethod (callable : Callable) (receiver : String) : Callable :=
  { callable with instanceParameter := some ⟨receiver, false⟩, isMethod := true }

def asConstructor (callable : Callable) : Callable :=
  { callable with isConstructor := true }

def inPlaceOf (callable : Callable) (name : String) : Callable :=
  { callable with shadows := some name }

def addParameter (callable : Callable) (parameter : Parameter) : Callable :=
  { callable with parameters := callable.parameters ++ [parameter] }

/-- A parameter by name, the instance parameter first. -/
def parameter? (callable : Callable) (name : String) : Option Parameter :=
  (callable.instanceParameter.toList ++ callable.parameters).find? fun parameter =>
    parameter.name == name

def isReceiver (callable : Callable) (parameter : Parameter) : Bool :=
  callable.instanceParameter == some parameter

end Callable

structure PropertyAccess where
  readable : Bool := true
  writable : Bool := false
  construct : Bool := false
  constructOnly : Bool := false
  deriving DecidableEq, Repr

inductive EntityKind
  /-- The parent and the interfaces are qualified names. -/
  | classType (parent : Option String) (interfaces : List String) (typeName : Option String)
  | interfaceType (prerequisites : List String) (typeName : Option String)
  | record
  | boxed
  | unionType
  | enumeration
  | bitfield
  | typeAlias
  | constant
  | callback (callable : Callable)
  | function (callable : Callable)
  | virtualFunction (callable : Callable)
  | signal (callable : Callable)
  | property (access : PropertyAccess)
  | field
  /-- A value of an enumeration or a bitfield. -/
  | member
  | docSection
  deriving DecidableEq, Repr

namespace EntityKind

def callable? : EntityKind → Option Callable
  | callback callable => some callable
  | function callable => some callable
  | virtualFunction callable => some callable
  | signal callable => some callable
  | _ => none

def isFunction : EntityKind → Bool
  | function _ => true
  | _ => false

def isProperty : EntityKind → Bool
  | property _ => true
  | _ => false

def isSignal : EntityKind → Bool
  | signal _ => true
  | _ => false

def isInterface : EntityKind → Bool
  | interfaceType _ _ => true
  | _ => false

/-- Functions that are called on an instance, and every virtual function. -/
def isMethod : EntityKind → Bool
  | function callable => callable.isMethod
  | virtualFunction _ => true
  | _ => false

def isConstructor : EntityKind → Bool
  | function callable => callable.isConstructor
  | _ => false

def shadows? : EntityKind → Option String
  | function callable => callable.shadows
  | _ => none

def isShadowed : EntityKind → Bool
  | function callable => callable.shadowedBy.isSome
  | _ => false

def typeName? : EntityKind → Option String
  | classType _ _ typeName => typeName
  | interfaceType _ typeName => typeName
  | _ => none

def interfaces : EntityKind → List String
  | classType _ interfaces _ => interfaces
  | _ => []

/-- Kinds that have an anchor spelled like the type itself. -/
def isType : EntityKind → Bool
  | classType _ _ _ => true
  | interfaceType _ _ => true
  | record => true
  | enumeration => true
  | callback _ => true
  | typeAlias => true
  | _ => false

end EntityKind

/-- What is said about an entity, apart from its place among others. -/
structure EntityInfo where
  name : String
  /-- The C symbol or identifier, such as `gtk_widget_show`. -/
  symbol : Option String := none
  isPrivate : Bool := false
  isIntrospectable : Bool := true
  kind : EntityKind
  deriving DecidableEq, Repr

/-- A declaration with those nested in it. -/
structure Declaration extends EntityInfo where
  children : List Declaration := []
  deriving Repr

namespace Declaration

def addChild (decl child : Declaration) : Declaration :=
  { decl with children := decl.children ++ [child] }

mutual

/-- How many entities are declared, the declaration itself included. -/
def size : Declaration → Nat
  | ⟨_, children⟩ => sizeAll children + 1

def sizeAll : List Declaration → Nat
  | [] => 0
  | decl :: rest => size decl + sizeAll rest

end

end Declaration

/-- An entity in its namespace, where entities are known by their index. -/
structure Entity extends EntityInfo where
  parent : Option Nat
  children : List Nat
  deriving DecidableEq, Repr

namespace Entity

/-- The name that readers know the entity by. -/
def publicName (entity : Entity) : String :=
  entity.kind.shadows?.getD entity.name

end Entity

end DocMarkup
