import DocMarkup.GtkDoc.Anchor
import DocMarkup.GtkDoc.Index

namespace DocMarkup

inductive ReferenceProblem
  | missing
  | notOnline
  | approximate (directory : Path)
  deriving DecidableEq, Repr

structure ReferenceNotice where
  space : String
  version : String
  problem : ReferenceProblem
  deriving DecidableEq, Repr

namespace ReferenceNotice

def message (notice : ReferenceNotice) : String :=
  let release := notice.space ++ notice.version
  match notice.problem with
  | .missing => "No reference found for " ++ release
  | .notOnline => "No online reference found for " ++ release
  | .approximate directory =>
      "Using an approximate match for reference " ++ release ++ ":" ++ directory

end ReferenceNotice

/-- How links into gtk-doc references are made. -/
structure GtkDoc where
  library : GtkDoc.Library
  /-- Whether to link to the online copies. -/
  online : Bool

namespace GtkDoc

def find? (gtkDoc : GtkDoc) (space : Namespace) : Option GtkDoc.Finding :=
  gtkDoc.library.find? space.exportedPackages

def problem? (gtkDoc : GtkDoc) (space : Namespace) : Option ReferenceProblem :=
  match gtkDoc.find? space with
  | none => some .missing
  | some found =>
      if gtkDoc.online && found.index.online.isNone then some .notOnline
      else if found.exact then none
      else some (.approximate found.index.directory)

def pageOf (address : String) : String :=
  match address.toList.dropWhile (· != '/') with
  | _ :: page => String.ofList page
  | [] => address

def trimSlashes (address : String) : String :=
  String.ofList (address.toList.reverse.dropWhile (· == '/')).reverse

/-- The address of an entity in the reference of its namespace, if it has one there. -/
def address? {repo : Repository} (gtkDoc : GtkDoc) (ref : repo.Ref) : Option String := do
  let found ← gtkDoc.find? ref.namespaceOf
  let page := pageOf (← found.index.page? ref.anchor)
  match found.index.online, gtkDoc.online with
  | some online, true => return trimSlashes online ++ "/" ++ page
  | _, _ => return Path.join found.index.directory page

end GtkDoc

end DocMarkup
