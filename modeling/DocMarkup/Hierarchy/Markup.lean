import DocMarkup.Hierarchy
import DocMarkup.Link.Style

/-!
Class hierarchies as page markup: a tree of items, each with a link to its class.

    <tree>
      <item>
        <link href="../GObject-2.0/GObject.Object.html">GObject.Object</link>
        <item>
          <link xref="Gtk.Widget">Gtk.Widget</link>
        </item>
      </item>
    </tree>
-/

namespace DocMarkup

namespace Hierarchy

variable {repo : Repository}

def entity? (hierarchy : Hierarchy repo) (id : ClassId) : Option repo.Ref :=
  (hierarchy.class? id).bind (·.entity)

def linkElement (hierarchy : Hierarchy repo) (style : LinkStyle repo) (id : ClassId) :
    Page.Element :=
  (style.link (hierarchy.entity? id) (hierarchy.name? id) false).element

mutual

def item (hierarchy : Hierarchy repo) (style : LinkStyle repo) :
    PathTree ClassId → Page.Element
  | .node id branches =>
      { name := "item"
        children := hierarchy.linkElement style id :: items hierarchy style branches }

def items (hierarchy : Hierarchy repo) (style : LinkStyle repo) :
    List (PathTree ClassId) → List Page.Element
  | [] => []
  | tree :: rest => item hierarchy style tree :: items hierarchy style rest

end

def trees (hierarchy : Hierarchy repo) : List (PathTree ClassId) :=
  hierarchy.roots.map hierarchy.downward

def element (hierarchy : Hierarchy repo) (style : LinkStyle repo) : Page.Element :=
  { name := "tree", children := hierarchy.items style hierarchy.trees }

/-- How deep the tree stands in its page. -/
def pageLevel : Nat := 2

def indented (hierarchy : Hierarchy repo) (style : LinkStyle repo) : Page.Element :=
  { (hierarchy.element style).indent pageLevel with tail := none }

def markup (hierarchy : Hierarchy repo) (style : LinkStyle repo) : String :=
  (hierarchy.indented style).markup

def notices (hierarchy : Hierarchy repo) (style : LinkStyle repo) : List ReferenceNotice :=
  (PathTree.verticesOfAll hierarchy.trees).filterMap fun id =>
    (hierarchy.entity? id).bind style.notice?

end Hierarchy

end DocMarkup
