import DocMarkup.Proofs.Hierarchy.Links

/-!
What is declared about a class and what its hierarchy shows.

If no name is met twice on the way up from a class, its hierarchy has all that is said on that way
and nothing else: the parents, the interfaces that are listed, and the base of all interfaces.
-/

namespace DocMarkup

open Repository Relation ClassNode

namespace Hierarchy

variable {repo : Repository} {ref : repo.Ref}

def OnChain (ref : repo.Ref) : ClassNode repo → Prop :=
  ReflTransGen HasParent (startClass ref)

/-- Some class on the way up says that it implements the interface. -/
def Listed (ref : repo.Ref) (interface : String) : Prop :=
  ∃ node, OnChain ref node ∧ node.Lists interface

/-- The class has a place in the hierarchy of an entity: it is on the way up, listed there as an
interface, or the base of what is listed. -/
inductive Present (ref : repo.Ref) : String → Prop
  | above {node : ClassNode repo} (hchain : OnChain ref node) : Present ref node.name
  | listed {interface : String} (hlisted : Listed ref interface) : Present ref interface
  | base {interface : String} (hlisted : Listed ref interface) : Present ref "GObject.GInterface"

/-- The second class is said to be above the first: it is its parent, an interface that it lists
and its parent does not, or the base of a listed interface. -/
inductive Below (ref : repo.Ref) : String → String → Prop
  | parent {node above : ClassNode repo} (hchain : OnChain ref node)
      (habove : node.HasParent above) : Below ref node.name above.name
  | interface {node : ClassNode repo} {interface : String} (hchain : OnChain ref node)
      (hlists : node.Lists interface)
      (hother : ∀ above, node.HasParent above → ¬ above.Lists interface) :
      Below ref node.name interface
  | base {interface : String} (hlisted : Listed ref interface) :
      Below ref interface "GObject.GInterface"

section

variable (hunrepeated : (startClass ref).Unrepeated)

include hunrepeated

theorem mem_declaredChain_iff {name : String} {entity : repo.Ref} :
    (name, entity) ∈ declaredChain ref ↔ OnChain ref ⟨name, some entity⟩ :=
  ⟨fun hmem => ascends_of_mem_chain _ hmem,
    fun hchain => mem_chain_of_ascends hunrepeated.climbsPast hchain rfl⟩

theorem exists_own_of_listed {interface : String} (h : Listed ref interface) :
    ∃ item ∈ declaredChain ref, interface ∈ ownInterfaces item.2 := by
  obtain ⟨⟨name, _⟩, hchain, entity, rfl, hlists⟩ := h
  have hmem := (mem_declaredChain_iff hunrepeated).mpr hchain
  exact exists_owner hunrepeated.climbsPast _ hmem hlists

theorem onChain_of_mem {item : String × repo.Ref} (hmem : item ∈ declaredChain ref) :
    OnChain ref ⟨item.1, some item.2⟩ :=
  (mem_declaredChain_iff hunrepeated).mp hmem

theorem listed_of_own {item : String × repo.Ref} {interface : String}
    (hmem : item ∈ declaredChain ref) (hown : interface ∈ ownInterfaces item.2) :
    Listed ref interface :=
  ⟨_, onChain_of_mem hunrepeated hmem, item.2, rfl, (mem_ownInterfaces_iff.mp hown).1⟩

theorem LinkOf.below {link : ParentLink repo} (hlink : LinkOf ref link) :
    Below ref link.1 link.2.name := by
  obtain ⟨item, hitem, hlink⟩ := hlink
  cases hlink with
  | parent hparent => exact Below.parent (onChain_of_mem hunrepeated hitem) (.named rfl hparent)
  | interface hown =>
      obtain ⟨hlists, hinherited⟩ := mem_ownInterfaces_iff.mp hown
      refine Below.interface (onChain_of_mem hunrepeated hitem) ⟨_, rfl, hlists⟩ ?_
      exact fun above habove hlisted =>
        hinherited (inherited_iff_parent_lists.mpr ⟨above, habove, hlisted⟩)
  | base hown => exact .base (listed_of_own hunrepeated hitem hown)

theorem linkOf_of_below {child parent : String} (h : Below ref child parent) :
    ∃ above, LinkOf ref (child, above) ∧ above.name = parent := by
  cases h with
  | @parent node above hchain habove =>
      obtain ⟨name, _⟩ := node
      obtain ⟨rfl, hkind⟩ := habove
      exact ⟨_, ⟨_, (mem_declaredChain_iff hunrepeated).mpr hchain, .parent hkind⟩, rfl⟩
  | @interface node _ hchain hlists hother =>
      obtain ⟨name, _⟩ := node
      obtain ⟨entity, rfl, hlists⟩ := hlists
      have hown : parent ∈ ownInterfaces entity := by
        refine mem_ownInterfaces_iff.mpr ⟨hlists, fun hinherited => ?_⟩
        obtain ⟨above, habove, hlisted⟩ := inherited_iff_parent_lists.mp hinherited
        exact hother above habove hlisted
      exact ⟨_, ⟨_, (mem_declaredChain_iff hunrepeated).mpr hchain, .interface hown⟩, rfl⟩
  | base hlisted =>
      obtain ⟨item, hitem, hown⟩ := exists_own_of_listed hunrepeated hlisted
      exact ⟨_, ⟨item, hitem, .base hown⟩, rfl⟩

theorem LinkOf.present {link : ParentLink repo} (hlink : LinkOf ref link) :
    Present ref link.2.name := by
  obtain ⟨item, hitem, hlink⟩ := hlink
  cases hlink with
  | parent hparent =>
      exact Present.above ((onChain_of_mem hunrepeated hitem).tail (.named rfl hparent))
  | interface hown => exact .listed (listed_of_own hunrepeated hitem hown)
  | base hown => exact .base (listed_of_own hunrepeated hitem hown)

theorem start_or_linkOf_of_present {name : String} (h : Present ref name) :
    ref.qualifiedName = name ∨ ∃ link, LinkOf ref link ∧ link.2.name = name := by
  cases h with
  | @above node hchain =>
      rcases hchain.cases_tail with rfl | ⟨below, hbelow, hparent⟩
      · exact .inl rfl
      · obtain ⟨above, hlink, hname⟩ := linkOf_of_below hunrepeated (.parent hbelow hparent)
        exact .inr ⟨_, hlink, hname⟩
  | listed hlisted =>
      obtain ⟨item, hitem, hown⟩ := exists_own_of_listed hunrepeated hlisted
      exact .inr ⟨_, ⟨item, hitem, .interface hown⟩, rfl⟩
  | base hlisted =>
      obtain ⟨above, hlink, hname⟩ := linkOf_of_below hunrepeated (.base hlisted)
      exact .inr ⟨_, hlink, hname⟩

end

/-- If no name is met twice on the way up from a class, its hierarchy has the classes that are
said to be there, with what is said to be above them, and nothing else. -/
theorem build_declared (hkind : ref.kind.isInterface = false)
    (hunrepeated : (startClass ref).Unrepeated) :
    (∀ name, name ∈ (build ref).names ↔ Present ref name) ∧
      ∀ child parent, (build ref).Shows child parent ↔ child ≠ parent ∧ Below ref child parent := by
  constructor
  · intro name
    rw [mem_names_build hkind]
    constructor
    · rintro (rfl | ⟨link, hlink, rfl⟩)
      · exact @Present.above _ _ (startClass ref) .refl
      · exact hlink.present hunrepeated
    · exact start_or_linkOf_of_present hunrepeated
  · intro child parent
    rw [shows_build hkind]
    refine and_congr_right fun _ => ⟨?_, linkOf_of_below hunrepeated⟩
    rintro ⟨above, hlink, rfl⟩
    exact hlink.below hunrepeated

def boxes : Repository :=
  .ofDecl {
    space := {
      name := "Gtk"
      version := "3.0"
      entities := [
        { name := "Widget", kind := .classType (some "GObject.Object") ["Gtk.Buildable"] none },
        { name := "Box"
          kind := .classType (some "Gtk.Widget") ["Gtk.Buildable", "Gtk.Orientable"] none }] } }

def box : boxes.Ref := ⟨⟨0, by decide⟩, ⟨1, by decide⟩⟩

theorem unrepeated_box : (startClass box).Unrepeated := by
  have hobject : (boxes.namedClass "GObject.Object").entity = none := by decide +kernel
  have hentity : (boxes.namedClass "Gtk.Widget").entity =
      some ⟨⟨0, by decide⟩, ⟨0, by decide⟩⟩ := by
    decide +kernel
  have hwidget : (boxes.namedClass "Gtk.Widget").HasParent (boxes.namedClass "GObject.Object") :=
    .named hentity (by decide +kernel)
  have hbox : (startClass box).HasParent (boxes.namedClass "Gtk.Widget") :=
    .named rfl (by decide +kernel)
  refine .below hbox (.below hwidget (.of_undeclared hobject) ?_) ?_
  · intro above h
    rw [eq_of_undeclared hobject h]
    decide
  · intro above h
    rcases (ascends_iff hwidget).mp h with rfl | h
    · decide +kernel
    · rw [eq_of_undeclared hobject h]
      decide +kernel

theorem build_declared_box :
    box.kind.isInterface = false ∧ (startClass box).Unrepeated ∧
      "Gtk.Buildable" ∈ (build box).names ∧
      (build box).Shows "Gtk.Buildable" "GObject.GInterface" := by
  have hkind : box.kind.isInterface = false := by decide +kernel
  have hlisted : Listed box "Gtk.Buildable" := ⟨_, .refl, box, rfl, by decide +kernel⟩
  obtain ⟨hnames, hshows⟩ := build_declared hkind unrepeated_box
  refine ⟨hkind, unrepeated_box, (hnames _).mpr (.listed hlisted), ?_⟩
  exact (hshows _ _).mpr ⟨by decide, .base hlisted⟩

end Hierarchy

end DocMarkup
