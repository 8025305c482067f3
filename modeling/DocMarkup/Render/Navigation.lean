import DocMarkup.Render.Renderer
import DocMarkup.Hierarchy.Markup
import DocMarkup.Page.Chunk

namespace DocMarkup

inductive Direction
  | next
  | previous
  deriving DecidableEq, Repr

namespace Direction

def name : Direction → String
  | next => "next"
  | previous => "previous"

end Direction

/-- The texts as a list in a sentence: `A`, `A and B`, `A, B and C`. -/
def sentenceList : List String → String
  | [] => ""
  | [last] => last
  | [first, last] => first ++ " and " ++ last
  | first :: rest => first ++ ", " ++ sentenceList rest

namespace PropertyAccess

def summary (access : PropertyAccess) (constructOnly : Bool) : String :=
  let words : List String :=
    (if access.readable && !constructOnly then ["Read"] else []) ++
      (if access.writable && !constructOnly then ["Write"] else []) ++
      (if access.construct then ["Construct"] else []) ++
      (if access.constructOnly then ["Construct Only"] else [])
  String.intercalate " / " words

end PropertyAccess

namespace Repository

variable {repo : Repository}

/-- The page of a symbol, or else of a type. -/
def pageOf? (repo : Repository) (identifier : String) : Option String :=
  ((repo.entityOfSymbol? identifier).or (repo.entityOfType? identifier)).map Ref.pageId

namespace Ref

def accessSummary (ref : repo.Ref) (constructOnly : Bool) : String :=
  match ref.kind with
  | .property access => access.summary constructOnly
  | _ => ""

/-- What an interface requires, which is the base of all classes if it does not say. -/
def prerequisites (ref : repo.Ref) : String :=
  match ref.kind with
  | .interfaceType (first :: rest) _ => sentenceList (first :: rest)
  | _ => "GObject.Object"

/-- The classes of the interface's own namespace that say they implement it. -/
def implementations (ref : repo.Ref) : String :=
  let implementing (entity : Entity) : Bool :=
    entity.parent.isNone && entity.kind.interfaces.contains ref.qualifiedName
  let names := (ref.namespaceOf.entities.toList.filter implementing).map (·.name)
  if names.isEmpty then "None"
  else ref.entity.name ++ " is implemented by " ++ sentenceList names

end Ref

end Repository

namespace Renderer

variable {repo : Repository}

/-- What the neighbouring page is about. Functions are in the order of the symbols of their
section; types and sections of text are in the order of sections. -/
def neighbour? (sections : Sections) (direction : Direction) (entity : Entity) :
    Option String :=
  let symbol? (symbol : String) : Option String :=
    match direction with
    | .next => sections.symbolAfter? symbol
    | .previous => sections.symbolBefore? symbol
  let title? (title : String) : Option String :=
    match direction with
    | .next => (sections.after? title).map (·.title)
    | .previous => (sections.before? title).map (·.title)
  match entity.kind with
  | .function _ => entity.symbol.bind symbol?
  | .docSection => title? entity.name
  | kind => kind.typeName?.bind title?

def pageLink (renderer : Renderer repo) (direction : Direction) (ref : repo.Ref) : String :=
  let page := do
    let sections ← renderer.sections
    repo.pageOf? (← neighbour? sections direction ref.entity)
  match page with
  | some page =>
      Page.write (Page.Chunk.tag "link" [("xref", page), ("type", direction.name)] none)
  | none => ""

def hierarchyTree (renderer : Renderer repo) (ref : repo.Ref) : Output where
  chunks := ((Hierarchy.build ref).indented renderer.style).chunks
  notices := ((Hierarchy.build ref).notices renderer.style).map .reference

end Renderer

end DocMarkup
