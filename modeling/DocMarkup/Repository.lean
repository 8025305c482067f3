import DocMarkup.Repository.Namespace
import DocMarkup.Text.Case
import DocMarkup.Text.Split

/-!
Repositories: the namespace that is documented and those it depends on.

Type names and C symbols carry prefixes that tell their namespace, but not always just one:
splitting them gives candidates, in the order in which they are to be tried.
-/

namespace DocMarkup

structure RepositoryDeclaration where
  space : NamespaceDeclaration
  includes : List NamespaceDeclaration := []
  deriving Repr

structure Repository where
  /-- The namespace that is documented. -/
  documented : Namespace
  includes : List Namespace

namespace Repository

def ofDecl (decl : RepositoryDeclaration) : Repository :=
  ⟨.ofDecl decl.space, decl.includes.map .ofDecl⟩

def namespaces (repo : Repository) : List Namespace :=
  repo.documented :: repo.includes

/-- A namespace of the repository, by its place; the documented one comes first. -/
abbrev SpaceId (repo : Repository) := Fin repo.namespaces.length

def space (repo : Repository) (id : repo.SpaceId) : Namespace :=
  repo.namespaces[id]

def spaceIds (repo : Repository) : List repo.SpaceId :=
  List.finRange repo.namespaces.length

structure Ref (repo : Repository) where
  space : repo.SpaceId
  id : (repo.space space).Id
  deriving DecidableEq

namespace Ref

variable {repo : Repository}

def namespaceOf (ref : repo.Ref) : Namespace :=
  repo.space ref.space

def entity (ref : repo.Ref) : Entity :=
  (repo.space ref.space).entity ref.id

def kind (ref : repo.Ref) : EntityKind :=
  ref.entity.kind

def lineage (ref : repo.Ref) : Lineage :=
  (repo.space ref.space).lineage ref.id

def parent? (ref : repo.Ref) : Option repo.Ref :=
  ((repo.space ref.space).parent? ref.id).map (⟨ref.space, ·⟩)

def children (ref : repo.Ref) : List repo.Ref :=
  ((repo.space ref.space).children ref.id).map (⟨ref.space, ·⟩)

def isDocumented (ref : repo.Ref) : Bool :=
  ref.space.val == 0

def qualifiedName (ref : repo.Ref) : String :=
  ref.namespaceOf.name ++ "." ++ ref.entity.name

def child? (ref : repo.Ref) (name : String) (test : Entity → Bool) : Option repo.Ref :=
  ((repo.space ref.space).child? ref.id name test).map (⟨ref.space, ·⟩)

end Ref

def ref? (repo : Repository) (space id : Nat) : Option repo.Ref :=
  if hspace : space < repo.namespaces.length then
    if hid : id < (repo.space ⟨space, hspace⟩).entities.size then
      some ⟨⟨space, hspace⟩, ⟨id, hid⟩⟩
    else none
  else none

def documentedRefs (repo : Repository) : List repo.Ref :=
  (repo.space ⟨0, by simp [namespaces]⟩).ids.map (⟨_, ·⟩)

def spaceByName? (repo : Repository) (name : String) : Option repo.SpaceId :=
  repo.spaceIds.find? fun id => (repo.space id).name == name

def get? (repo : Repository) (space : repo.SpaceId) (name : String) : Option repo.Ref :=
  ((repo.space space).get? name).map (⟨space, ·⟩)

def withSymbol? (repo : Repository) (space : repo.SpaceId) (symbol : String) :
    Option repo.Ref :=
  ((repo.space space).withSymbol? symbol).map (⟨space, ·⟩)

/-- From an entity down along the names of children. -/
def descend? {repo : Repository} (ref : repo.Ref) : List String → Option repo.Ref
  | [] => some ref
  | name :: names => (ref.child? name fun _ => true).bind (descend? · names)

/-- Look-up of `Ns.Name`, or of a deeper path such as `Ns.Type.member`. -/
def lookup? (repo : Repository) (qualified : String) : Option repo.Ref :=
  match Text.split '.' qualified with
  | spaceName :: name :: names => do
      let space ← repo.spaceByName? spaceName
      let ref ← repo.get? space name
      descend? ref names
  | _ => none

/-- Prefixes in the order in which they are tried: longer ones, in bytes, come first. -/
def longestFirst (starts : List String) : List String :=
  (starts.filter fun start => start ≠ "").mergeSort fun first second =>
    decide (second.utf8ByteSize ≤ first.utf8ByteSize)

/-- The names that a type name may stand for in a namespace. One that declares no prefix
takes the identifier as it is. -/
def typeNames (space : Namespace) (identifier : String) : List String :=
  if space.identifierPrefixes.all (· == "") then [identifier]
  else
    (longestFirst space.identifierPrefixes).filterMap fun start =>
      match Text.afterChars? start.toList identifier.toList with
      | some [] => none
      | some rest => some (String.ofList rest)
      | none => none

def afterSymbolPrefix? : (start symbol : List Char) → Option (List Char)
  | [], '_' :: first :: rest => some (first :: rest)
  | [], _ => none
  | _ :: _, [] => none
  | first :: start, char :: symbol =>
      if first.toLower = char.toLower then afterSymbolPrefix? start symbol else none

/-- A symbol prefix counts without the underscores that it ends in. -/
def trimUnderscores (start : String) : List Char :=
  (start.toList.reverse.dropWhile (· == '_')).reverse

/-- The names that a symbol may stand for in a namespace. Prefixes match in any case of ASCII
letters, so that `GTK_ALIGN_FILL` is split like `gtk_align_fill`. -/
def symbolNames (space : Namespace) (symbol : String) : List String :=
  (longestFirst space.symbolPrefixes).filterMap fun start =>
    match trimUnderscores start with
    | [] => none
    | start => (afterSymbolPrefix? start symbol.toList).map String.ofList

def candidates (repo : Repository) (names : Namespace → List String) :
    List (repo.SpaceId × String) :=
  repo.spaceIds.flatMap fun id => (names (repo.space id)).map ((id, ·))

def typeCandidates (repo : Repository) (identifier : String) :
    List (repo.SpaceId × String) :=
  repo.candidates (typeNames · identifier)

def symbolCandidates (repo : Repository) (symbol : String) : List (repo.SpaceId × String) :=
  repo.candidates (symbolNames · symbol)

end Repository

end DocMarkup
