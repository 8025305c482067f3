import Mathlib.Logic.Relation
import DocMarkup.Proofs.Data.Limits

/-!
What is written of a description is read back as it was, and so is all that it can be changed to
by changes that do not count.
-/

namespace DocMarkup

open Data

theorem isJson_optionalTextValue (text : Option String) : (optionalTextValue text).IsJson := by
  cases text with
  | none => exact .null
  | some text => exact .text text

theorem isJson_textsValue (texts : List String) : (textsValue texts).IsJson :=
  .list (List.forall_mem_map.mpr fun text _ => .text text)

theorem optional?_optionalTextValue (text : Option String) :
    Value.optional? Value.text? (optionalTextValue text) = some text := by
  cases text <;> rfl

theorem texts?_textsValue (texts : List String) :
    Value.texts? (textsValue texts) = some texts :=
  mapM_map_eq_some fun _ _ => rfl

namespace Parameter

theorem isJson_toValue (parameter : Parameter) : parameter.toValue.IsJson :=
  .record (by simp [Value.IsJson.text, Value.IsJson.flag])

theorem ofValue?_toValue (parameter : Parameter) : ofValue? parameter.toValue = some parameter :=
  rfl

end Parameter

namespace Callable

theorem isJson_toFields (callable : Callable) : ∀ field ∈ callable.toFields, field.2.IsJson := by
  have hparameters : (Value.list (callable.parameters.map Parameter.toValue)).IsJson :=
    .list (List.forall_mem_map.mpr fun parameter _ => parameter.isJson_toValue)
  obtain ⟨parameters, receiver, _⟩ := callable
  cases receiver <;>
    simp [toFields, hparameters, isJson_optionalTextValue, Parameter.isJson_toValue,
      Value.IsJson.flag, Value.IsJson.null]

theorem ofFields?_toFields (callable : Callable) (kind : Value) :
    ofFields? (("kind", kind) :: callable.toFields) = some callable := by
  obtain ⟨parameters, receiver, isMethod, isConstructor, shadows, shadowedBy⟩ := callable
  have hparameters :
      (parameters.map Parameter.toValue).mapM Parameter.ofValue? = some parameters :=
    mapM_map_eq_some fun _ _ => rfl
  have hnull : Value.optional? Parameter.ofValue? .null = some none := rfl
  have hreceiver (parameter : Parameter) :
      Value.optional? Parameter.ofValue? parameter.toValue = some (some parameter) := rfl
  have hshadows := optional?_optionalTextValue shadows
  have hshadowedBy := optional?_optionalTextValue shadowedBy
  cases receiver <;>
    simp [ofFields?, toFields, Fields.optional?, Fields.value?, Value.items?, Value.flag?,
      hparameters, hnull, hreceiver, hshadows, hshadowedBy]

end Callable

namespace PropertyAccess

theorem isJson_toFields (access : PropertyAccess) : ∀ field ∈ access.toFields, field.2.IsJson := by
  simp [toFields, Value.IsJson.flag]

theorem ofFields?_toFields (access : PropertyAccess) (kind : Value) :
    ofFields? (("kind", kind) :: access.toFields) = some access := rfl

end PropertyAccess

namespace EntityKind

theorem isJson_toFields (kind : EntityKind) : ∀ field ∈ kind.toFields, field.2.IsJson := by
  cases kind with
  | callback callable | function callable | virtualFunction callable | signal callable =>
      exact List.forall_mem_cons.mpr ⟨.text _, callable.isJson_toFields⟩
  | property access => exact List.forall_mem_cons.mpr ⟨.text _, access.isJson_toFields⟩
  | _ =>
      simp [toFields, ownFields, isJson_textsValue, isJson_optionalTextValue, Value.IsJson.text]

theorem ofFields?_toFields (kind : EntityKind) : ofFields? kind.toFields = some kind := by
  cases kind with
  | classType parent interfaces typeName =>
      have hparent := optional?_optionalTextValue parent
      have htypeName := optional?_optionalTextValue typeName
      show classOfFields? _ = _
      simp [classOfFields?, toFields, ownFields, Fields.optional?, Fields.value?, hparent,
        htypeName, texts?_textsValue]
  | interfaceType prerequisites typeName =>
      have htypeName := optional?_optionalTextValue typeName
      show interfaceOfFields? _ = _
      simp [interfaceOfFields?, toFields, ownFields, Fields.optional?, Fields.value?, htypeName,
        texts?_textsValue]
  | callback callable | function callable | virtualFunction callable | signal callable =>
      exact congrArg (Option.map _) (callable.ofFields?_toFields _)
  | _ => rfl

end EntityKind

namespace EntityKind

theorem name_notMem_commonNames (kind : EntityKind) :
    ∀ field ∈ kind.toFields, field.1 ∉ EntityInfo.commonNames := by
  cases kind <;>
    simp [toFields, ownFields, Callable.toFields, PropertyAccess.toFields, EntityInfo.commonNames]

end EntityKind

namespace EntityInfo

variable (info : EntityInfo) (children : Value)

theorem isJson_toFields : ∀ field ∈ info.toFields, field.2.IsJson := by
  refine List.forall_mem_append.mpr ⟨?_, info.kind.isJson_toFields⟩
  simp [isJson_optionalTextValue, Value.IsJson.text, Value.IsJson.flag]

theorem filter_common :
    (info.toFields ++ [("children", children)]).filter (fun field => field.1 ∈ commonNames) =
      [("name", .text info.name), ("symbol", optionalTextValue info.symbol),
        ("private", .flag info.isPrivate), ("introspectable", .flag info.isIntrospectable),
        ("children", children)] := by
  have hkind : info.kind.toFields.filter (fun field => field.1 ∈ commonNames) = [] :=
    List.filter_eq_nil_iff.mpr fun field hfield =>
      decide_eq_true_iff.not.mpr (info.kind.name_notMem_commonNames field hfield)
  simp only [toFields, List.filter_append, hkind]
  rfl

theorem filter_own :
    (info.toFields ++ [("children", children)]).filter (fun field => field.1 ∉ commonNames) =
      info.kind.toFields := by
  have hkind : info.kind.toFields.filter (fun field => field.1 ∉ commonNames) =
      info.kind.toFields :=
    List.filter_eq_self.mpr fun field hfield =>
      decide_eq_true (info.kind.name_notMem_commonNames field hfield)
  simp only [toFields, List.filter_append, hkind]
  exact List.append_nil _

theorem value?_common {name : String} (h : name ∈ commonNames) :
    Fields.value? (info.toFields ++ [("children", children)]) name =
      Fields.value? [("name", .text info.name), ("symbol", optionalTextValue info.symbol),
        ("private", .flag info.isPrivate), ("introspectable", .flag info.isIntrospectable),
        ("children", children)] name := by
  rw [← filter_common info children]
  exact (Fields.value?_filter (fun name => decide (name ∈ commonNames)) (decide_eq_true h)).symm

theorem ofFields?_toFields {limit : Nat}
    (h : ∀ field ∈ info.toFields ++ [("children", children)], field.2.Fits limit) :
    ofFields? limit (info.toFields ++ [("children", children)]) = some info := by
  have hsymbol := optional?_optionalTextValue info.symbol
  rw [Shape.infoOfFields?_eq h, filter_own, info.kind.ofFields?_toFields]
  simp only [Fields.required?, Fields.optional?, value?_common info children
    (show "name" ∈ commonNames by decide), value?_common info children
    (show "symbol" ∈ commonNames by decide), value?_common info children
    (show "private" ∈ commonNames by decide), value?_common info children
    (show "introspectable" ∈ commonNames by decide)]
  simp [Fields.value?, Value.text?, Value.flag?, hsymbol]

end EntityInfo

namespace Declaration

mutual

theorem isJson_toValue : ∀ decl : Declaration, decl.toValue.IsJson
  | ⟨info, children⟩ => by
      have hchildren : (Value.list (toValues children)).IsJson := .list (isJson_toValues children)
      rw [toValue]
      exact .record (List.forall_mem_append.mpr
        ⟨info.isJson_toFields, List.forall_mem_singleton.mpr hchildren⟩)

theorem isJson_toValues : ∀ decls : List Declaration, ∀ value ∈ toValues decls, value.IsJson
  | [] => nofun
  | decl :: rest => by
      rw [toValues]
      exact List.forall_mem_cons.mpr ⟨isJson_toValue decl, isJson_toValues rest⟩

end

mutual

theorem ofValue?_toValue : ∀ (decl : Declaration) {limit : Nat}, decl.toValue.Fits limit →
    ofValue? limit decl.toValue = some decl
  | ⟨info, children⟩, limit, h => by
      rw [toValue] at h ⊢
      cases limit with
      | zero => exact absurd h Value.not_fits_ofFields
      | succ limit =>
          have hfits := Value.fits_ofFields_iff.mp h
          have hlist : (Value.list (toValues children)).Fits limit :=
            hfits _ (List.mem_append_right _ (List.mem_singleton_self _))
          cases limit with
          | zero => exact absurd hlist Value.not_fits_list
          | succ limit =>
              have hchildren := mapM_toValues children (Value.fits_list_iff.mp hlist)
              simp only [Shape.ofValue?_succ, Value.fields?_ofFields, Option.bind_eq_bind,
                Option.bind_some, info.ofFields?_toFields _ hfits, Fields.optional?,
                info.value?_common _ (show "children" ∈ EntityInfo.commonNames by decide)]
              simp [Fields.value?, Shape.readChildren?, Value.items?, hchildren]

theorem mapM_toValues : ∀ (decls : List Declaration) {limit : Nat},
    (∀ value ∈ toValues decls, value.Fits limit) →
      (toValues decls).mapM (ofValue? limit) = some decls
  | [], _, _ => rfl
  | decl :: rest, limit, h => by
      rw [toValues] at h ⊢
      obtain ⟨hdecl, hrest⟩ := List.forall_mem_cons.mp h
      rw [List.mapM_cons, ofValue?_toValue decl hdecl, mapM_toValues rest hrest]
      rfl

end

end Declaration

namespace NamespaceDeclaration

theorem isJson_toValue (decl : NamespaceDeclaration) : decl.toValue.IsJson := by
  have hentities : (Value.list (Declaration.toValues decl.entities)).IsJson :=
    .list (Declaration.isJson_toValues decl.entities)
  exact .record (by simp [isJson_textsValue, Value.IsJson.text, hentities])

theorem ofValue?_toValue (decl : NamespaceDeclaration) {dialect : Dialect}
    (h : decl.toValue.Fits dialect.limit) : ofValue? dialect decl.toValue = some decl := by
  obtain ⟨limit, positional⟩ := dialect
  obtain _ | limit := limit
  · exact absurd h Value.not_fits_ofFields
  · have hlist : (Value.list (Declaration.toValues decl.entities)).Fits limit :=
      Value.fits_ofFields_iff.mp h ("entities", _) (by simp)
    obtain _ | limit := limit
    · exact absurd hlist Value.not_fits_list
    · have hentities := Declaration.mapM_toValues decl.entities (Value.fits_list_iff.mp hlist)
      simp [ofValue?, toValue, Fields.required?, Fields.optional?, Fields.value?, Value.text?,
        Value.items?, texts?_textsValue, hentities]

end NamespaceDeclaration

namespace RepositoryDeclaration

theorem isJson_toValue (decl : RepositoryDeclaration) : decl.toValue.IsJson := by
  have hincludes : (Value.list (decl.includes.map NamespaceDeclaration.toValue)).IsJson :=
    .list (List.forall_mem_map.mpr fun space _ => space.isJson_toValue)
  exact .record (by simp [decl.space.isJson_toValue, hincludes])

theorem ofValue?_toValue (decl : RepositoryDeclaration) {dialect : Dialect}
    (h : decl.toValue.Fits dialect.limit) : ofValue? dialect decl.toValue = some decl := by
  obtain ⟨limit, positional⟩ := dialect
  obtain _ | limit := limit
  · exact absurd h Value.not_fits_ofFields
  · have hfits := Value.fits_ofFields_iff.mp h
    have hspace : NamespaceDeclaration.ofValue? ⟨limit, positional⟩ decl.space.toValue =
        some decl.space :=
      decl.space.ofValue?_toValue (hfits _ List.mem_cons_self)
    have hlist : (Value.list (decl.includes.map NamespaceDeclaration.toValue)).Fits limit :=
      hfits _ (List.mem_cons_of_mem _ List.mem_cons_self)
    obtain _ | limit := limit
    · exact absurd hlist Value.not_fits_list
    · have hincludes : (decl.includes.map NamespaceDeclaration.toValue).mapM
          (NamespaceDeclaration.ofValue? ⟨limit, positional⟩) = some decl.includes :=
        mapM_map_eq_some fun space hspace =>
          space.ofValue?_toValue (Value.fits_list_iff.mp hlist _ (List.mem_map_of_mem hspace))
      simp [ofValue?, toValue, Fields.required?, Fields.optional?, Fields.value?, Value.items?,
        hspace, hincludes]

theorem exists_limit {first second : Value}
    (h : Relation.EqvGen (Changes .repository) first second) :
    (first.IsJson ↔ second.IsJson) ∧ (first.IsJson → ∃ least, ∀ dialect : Dialect,
      least ≤ dialect.limit → ofValue? dialect first = ofValue? dialect second) := by
  induction h with
  | rel first second h =>
      refine ⟨h.isJson_iff, fun hjson => ⟨max first.depth second.depth, fun dialect hle => ?_⟩⟩
      obtain ⟨hfirst, hsecond⟩ := Nat.max_le.mp hle
      exact h.same dialect ⟨hjson, hfirst⟩ ⟨h.isJson_iff.mp hjson, hsecond⟩
  | refl value => exact ⟨.rfl, fun _ => ⟨0, fun _ _ => rfl⟩⟩
  | symm first second _ ih =>
      obtain ⟨hiff, heq⟩ := ih
      refine ⟨hiff.symm, fun hjson => ?_⟩
      obtain ⟨least, heq⟩ := heq (hiff.mpr hjson)
      exact ⟨least, fun dialect hle => (heq dialect hle).symm⟩
  | trans first second third _ _ ihFirst ihSecond =>
      refine ⟨ihFirst.1.trans ihSecond.1, fun hjson => ?_⟩
      obtain ⟨least, hfirst⟩ := ihFirst.2 hjson
      obtain ⟨other, hsecond⟩ := ihSecond.2 (ihFirst.1.mp hjson)
      refine ⟨max least other, fun dialect hle => ?_⟩
      obtain ⟨hle, hotherLe⟩ := Nat.max_le.mp hle
      exact (hfirst dialect hle).trans (hsecond dialect hotherLe)

theorem ofValue?_eq_of_changes {first second : Value}
    (h : Relation.EqvGen (Changes .repository) first second) {dialect : Dialect}
    (hfirst : first.Fits dialect.limit) (hsecond : second.depth ≤ dialect.limit) :
    ofValue? dialect first = ofValue? dialect second := by
  obtain ⟨hiff, heq⟩ := exists_limit h
  obtain ⟨least, heq⟩ := heq hfirst.isJson
  obtain ⟨limit, positional⟩ := dialect
  calc ofValue? ⟨limit, positional⟩ first
      = ofValue? ⟨max limit least, positional⟩ first := ofValue?_of_le hfirst (Nat.le_max_left ..)
    _ = ofValue? ⟨max limit least, positional⟩ second := heq _ (Nat.le_max_right ..)
    _ = ofValue? ⟨limit, positional⟩ second :=
        (ofValue?_of_le ⟨hiff.mp hfirst.isJson, hsecond⟩ (Nat.le_max_left ..)).symm

/-- A description is read back as it was written, and what is read of JSON stays the same with the
order of its fields, with fields that nobody knows and without those that have their default. A
limit on how deep a notation may be nested has to leave room for it. -/
theorem reads_back (decl : RepositoryDeclaration) (dialect : Dialect) :
    (decl.toValue.depth ≤ dialect.limit → ofValue? dialect decl.toValue = some decl) ∧
      ∀ first second : Value, first.IsJson →
        Relation.EqvGen (Changes .repository) first second →
        first.depth ≤ dialect.limit → second.depth ≤ dialect.limit →
          ofValue? dialect first = ofValue? dialect second := by
  constructor
  · intro hdepth
    exact decl.ofValue?_toValue ⟨decl.isJson_toValue, hdepth⟩
  · intro first second hjson hchanges hfirst hsecond
    exact ofValue?_eq_of_changes hchanges ⟨hjson, hfirst⟩ hsecond

/-- A namespace with a property, of which is said what `access` says. -/
def labelled (access : Fields) : Value :=
  let label : Value :=
    .ofFields (access ++ [("kind", .text "property"), ("name", .text "label")])
  .ofFields [("namespace", .ofFields
    [("entities", .list [label]), ("name", .text "Gtk"), ("version", .text "3.0")])]

/-- A property can be read unless something else is said. -/
theorem reads_back_labelled :
    let label : Declaration := { name := "label", kind := .property {} }
    let decl : RepositoryDeclaration := {
      space := { name := "Gtk", version := "3.0", entities := [label] } }
    ofValue? .json decl.toValue = some decl ∧
      ofValue? .json (labelled [("readable", .flag true)]) = ofValue? .json (labelled []) := by
  intro label decl
  obtain ⟨hwritten, hchanged⟩ := reads_back decl .json
  refine ⟨hwritten (by decide), hchanged _ _ ?_ (.rel _ _ ?_) (by decide) (by decide)⟩
  · simp [labelled, Value.isJson_ofFields_iff, Value.isJson_list_iff, Value.IsJson.text,
      Value.IsJson.flag]
  · refine .field [] .space (.field _ (.entity (.property {}) [] []) (.leaveOut ?_ rfl (by decide)))
    intro read hread
    cases hread
    rfl

end RepositoryDeclaration

end DocMarkup
