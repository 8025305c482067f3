import DocMarkup.GtkDoc
import DocMarkup.Language
import DocMarkup.Link

/-!
Links to the pages of entities.

Entities of the documented namespace link to their page. Others link to the documentation of
their own namespace, or into its gtk-doc reference if that is enabled. What is wrong with a
reference is a notice beside the link and never changes the link itself.
-/

namespace DocMarkup

structure LinkStyle (repo : Repository) where
  language : Language
  gtkDoc : Option GtkDoc := none

namespace LinkStyle

variable {repo : Repository}

def indexPage : String := "index"

/-- The address of an entity of another namespace. -/
def address (style : LinkStyle repo) (ref : repo.Ref) : String :=
  match style.gtkDoc with
  | some gtkDoc =>
      (gtkDoc.address? ref).getD ("FIXME broken link to " ++ ref.entity.name)
  | none =>
      let space := ref.namespaceOf
      "../" ++ space.name ++ "-" ++ space.version ++ "/" ++ ref.pageId ++ ".html"

/-- The link to an entity, or to the index of the documented namespace for `none`. An empty
text counts as none. -/
def link (style : LinkStyle repo) (ref : Option repo.Ref) (text : Option String)
    (plural : Bool) : Link :=
  let text := text.filter (· ≠ "")
  let inNumber (name : String) : String := if plural then name ++ "s" else name
  match ref with
  | none => .toPage indexPage text
  | some ref =>
      if ref.isDocumented then
        .toPage ref.pageId (text.or (if plural then some (inNumber ref.pageId) else none))
      else
        .toAddress (style.address ref) (text.getD (inNumber (style.language.pageTitle ref)))

def notice? (style : LinkStyle repo) (ref : repo.Ref) : Option ReferenceNotice :=
  if ref.isDocumented then none
  else
    style.gtkDoc.bind fun gtkDoc =>
      (gtkDoc.problem? ref.namespaceOf).map
        (⟨ref.namespaceOf.name, ref.namespaceOf.version, ·⟩)

/-- Whether members are shown as a suffix to the link of what they are declared in. -/
def suffixesMembers (style : LinkStyle repo) (ref : repo.Ref) : Bool :=
  style.gtkDoc.isNone || ref.isDocumented

/-- The entity whose link stands for a reference, and the names that follow the link,
outermost first. -/
def target (style : LinkStyle repo) (ref : repo.Ref) : repo.Ref × List String :=
  match _h : (repo.space ref.space).parent? ref.id with
  | none => (ref, [])
  | some owner =>
      if ref.kind = .member ∧ style.suffixesMembers ref then
        let (linked, names) := style.target ⟨ref.space, owner⟩
        (linked, names ++ [ref.entity.name])
      else (ref, [])
termination_by ref.id.val
decreasing_by exact Namespace.parent?_lt _h

/-- The rendered link to an entity. Members of an enumeration link to its page, with their
name after the link. -/
def rendered (style : LinkStyle repo) (ref : Option repo.Ref) (text : Option String)
    (plural : Bool) : List Page.Chunk :=
  match ref with
  | none => (style.link none text plural).chunks
  | some ref =>
      let (linked, names) := style.target ref
      (style.link (some linked) text plural).chunks ++
        names.map fun name => .text ("." ++ name)

/-- What is wrong with the reference that a rendered link relies on. -/
def renderedNotice? (style : LinkStyle repo) (ref : repo.Ref) : Option ReferenceNotice :=
  style.notice? (style.target ref).1

end LinkStyle

end DocMarkup
