import DocMarkup.Repository

/-!
Page ids: `Gtk.Widget`, `Gtk.Widget.show`, `Gtk.Widget-can-focus`.
-/

namespace DocMarkup

namespace EntityKind

/-- Members that are set off by a hyphen in page ids, under the name that they declare. -/
def isHyphenated : EntityKind → Bool
  | property _ => true
  | signal _ => true
  | virtualFunction _ => true
  | field => true
  | _ => false

end EntityKind

namespace Lineage

def pageId (space : String) : Lineage → String
  | top entity => space ++ "." ++ entity.publicName
  | member entity parent =>
      if entity.kind.isHyphenated then parent.pageId space ++ "-" ++ entity.name
      else parent.pageId space ++ "." ++ entity.publicName

def pageKind (lineage : Lineage) : String :=
  match lineage.entity.kind with
  | .classType _ _ _ | .boxed | .unionType => "class"
  | .record => "record"
  | .interfaceType _ _ => "interface"
  | .function callable =>
      if callable.isMethod then "method"
      else if callable.isConstructor then "constructor"
      else "function"
  | .enumeration | .bitfield => "enum"
  | .property _ => if lineage.parent?.isSome then "property" else "default"
  | .signal _ => "signal"
  | .virtualFunction _ => "vfunc"
  | .callback _ => "callback"
  | .field => "field"
  | .docSection => "docsection"
  | .typeAlias | .constant | .member => "default"

end Lineage

namespace Repository.Ref

variable {repo : Repository}

def pageId (ref : repo.Ref) : String :=
  ref.lineage.pageId ref.namespaceOf.name

def pageKind (ref : repo.Ref) : String :=
  ref.lineage.pageKind

end Repository.Ref

end DocMarkup
