import Mathlib.Tactic.FinCases
import DocMarkup.Proofs.Data.Changes

/-!
What is read of a description does not depend on the changes that do not count.

For each name that a record knows, the same is found in it before and after such a change, unless
it is a default that is left out or a value that has changed in this way within. So every field
reads as before, and with all of its fields the record.
-/

namespace DocMarkup

open Data

namespace Shape

/-- The values read as the same, whatever limit they keep. -/
def Same : Shape → Value → Value → Prop
  | parameter, value, other => Parameter.ofValue? value = Parameter.ofValue? other
  | declaration _, value, other =>
      ∀ limit, value.Fits limit → other.Fits limit →
        Declaration.ofValue? limit value = Declaration.ofValue? limit other
  | space, value, other =>
      ∀ dialect : Dialect, value.Fits dialect.limit → other.Fits dialect.limit →
        NamespaceDeclaration.ofValue? dialect value = NamespaceDeclaration.ofValue? dialect other
  | repository, value, other =>
      ∀ dialect : Dialect, value.Fits dialect.limit → other.Fits dialect.limit →
        RepositoryDeclaration.ofValue? dialect value =
          RepositoryDeclaration.ofValue? dialect other

/-- What has changed in the value of a field. -/
inductive Within (shape : Shape) (name : String) : Value → Value → Prop
  | intro {inner : Shape} {around : Value → Value} {value other : Value}
      (hholds : shape.Holds name inner around) (h : Changes inner value other)
      (hsame : inner.Same value other) : Within shape name (around value) (around other)

/-- What is found for a name before and after a change. -/
inductive AlikeAt (shape : Shape) (name : String) :
    Option (Option Value) → Option (Option Value) → Prop
  | refl (found : Option (Option Value)) : AlikeAt shape name found found
  | leftOut {value : Value} (h : shape.defaults.lookup name = some value) :
      AlikeAt shape name (some (some value)) (some none)
  | within {value other : Value} (h : shape.Within name value other) :
      AlikeAt shape name (some (some value)) (some (some other))

/-- For all names that count for the record, much the same is found in both. -/
def Alike (shape : Shape) (fields others : Fields) : Prop :=
  ∀ name, shape.Knows name → shape.AlikeAt name (fields.value? name) (others.value? name)

variable {shape : Shape} {fields others : Fields}

theorem Alike.of_perm (h : fields.Perm others) : shape.Alike fields others := by
  intro name _
  rw [Fields.value?_perm h name]
  exact .refl _

theorem Alike.add {name : String} (hname : ¬ shape.Knows name) (value : Value) :
    shape.Alike fields ((name, value) :: fields) := by
  intro other hknows
  have hne : name ≠ other := fun heq => hname (heq ▸ hknows)
  rw [Fields.value?_cons_of_ne hne]
  exact .refl _

theorem Alike.leaveOut {name : String} {value : Value}
    (hdefault : shape.defaults.lookup name = some value) (honce : name ∉ fields.map Prod.fst) :
    shape.Alike ((name, value) :: fields) fields := by
  intro other _
  by_cases hname : name = other
  · subst hname
    rw [Fields.value?_cons_of_eq rfl, Fields.value?_eq_some_none_iff.mpr honce]
    exact .leftOut hdefault
  · rw [Fields.value?_cons_of_ne hname]
    exact .refl _

theorem Alike.within {name : String} {value other : Value}
    (h : shape.Within name value other) :
    shape.Alike ((name, value) :: fields) ((name, other) :: fields) := by
  intro known _
  by_cases hname : name = known
  · rw [Fields.value?_cons_of_eq hname, Fields.value?_cons_of_eq hname]
    subst hname
    split
    · exact .within h
    · exact .refl _
  · rw [Fields.value?_cons_of_ne hname, Fields.value?_cons_of_ne hname]
    exact .refl _

section Reading

variable {α : Type} {name : String} {decode : Value → Option α} {default : α} {value : Value}

theorem not_within (hname : name ∉ heldNames) {value other : Value} :
    ¬ shape.Within name value other := by
  rintro ⟨hholds, _, _⟩
  exact hname hholds.name_mem

theorem AlikeAt.required?_eq
    (h : shape.AlikeAt name (fields.value? name) (others.value? name))
    (hdefault : shape.defaults.lookup name = none)
    (hwithin : ∀ value other, (name, value) ∈ fields → (name, other) ∈ others →
      shape.Within name value other → decode value = decode other) :
    fields.required? name decode = others.required? name decode := by
  unfold Fields.required?
  generalize hfound : fields.value? name = found at h
  generalize hother : others.value? name = otherFound at h
  cases h with
  | refl => rfl
  | leftOut h => exact absurd (hdefault.symm.trans h) nofun
  | within h =>
      exact hwithin _ _ (Fields.mem_of_value? hfound) (Fields.mem_of_value? hother) h

theorem AlikeAt.optional?_eq
    (h : shape.AlikeAt name (fields.value? name) (others.value? name))
    (hdefault : shape.defaults.lookup name = some value)
    (hdecode : (name, value) ∈ fields → decode value = some default)
    (hwithin : ∀ value other, (name, value) ∈ fields → (name, other) ∈ others →
      shape.Within name value other → decode value = decode other) :
    fields.optional? name default decode = others.optional? name default decode := by
  unfold Fields.optional?
  generalize hfound : fields.value? name = found at h
  generalize hother : others.value? name = otherFound at h
  cases h with
  | refl => rfl
  | leftOut h =>
      cases hdefault.symm.trans h
      exact hdecode (Fields.mem_of_value? hfound)
  | within h =>
      exact hwithin _ _ (Fields.mem_of_value? hfound) (Fields.mem_of_value? hother) h

theorem Alike.required?_eq (h : shape.Alike fields others) (name : String)
    (decode : Value → Option α) (hname : name ∈ shape.required)
    (hdefault : shape.defaults.lookup name = none) (hheld : name ∉ heldNames) :
    fields.required? name decode = others.required? name decode :=
  (h name (.inl hname)).required?_eq hdefault
    fun _ _ _ _ hwithin => absurd hwithin (not_within hheld)

theorem Alike.optional?_eq (h : shape.Alike fields others) (name : String) (default : α)
    (decode : Value → Option α) (hdefault : shape.defaults.lookup name = some value)
    (hdecode : decode value = some default) (hheld : name ∉ heldNames) :
    fields.optional? name default decode = others.optional? name default decode :=
  (h name (.inr (hdefault ▸ rfl))).optional?_eq hdefault (fun _ => hdecode)
    fun _ _ _ _ hwithin => absurd hwithin (not_within hheld)

end Reading

theorem mapM_among_eq {α : Type} {decode : Value → Option α} {value other : Value}
    (before after : List Value) (h : decode value = decode other) :
    (do (← (Value.among before after value).items?).mapM decode) =
      (do (← (Value.among before after other).items?).mapM decode) := by
  simp only [Value.among, Value.items?, Option.bind_eq_bind, Option.bind_some, List.mapM_append,
    List.mapM_cons, h]

theorem fits_of_among {limit : Nat} {before after : List Value} {value : Value}
    (h : (Value.among before after value).Fits (limit + 1)) : value.Fits limit :=
  Value.fits_list_iff.mp h value (List.mem_append_right _ List.mem_cons_self)

theorem Within.space_eq {value other : Value} (h : repository.Within "namespace" value other)
    (dialect : Dialect) (hvalue : value.Fits dialect.limit) (hother : other.Fits dialect.limit) :
    NamespaceDeclaration.ofValue? dialect value = NamespaceDeclaration.ofValue? dialect other := by
  generalize hname : "namespace" = name at h
  obtain ⟨hholds, _, hsame⟩ := h
  cases hholds with
  | space => exact hsame dialect hvalue hother
  | included => exact absurd hname (by decide)

theorem Within.includes_eq {value other : Value} (h : repository.Within "includes" value other)
    (dialect : Dialect) (hvalue : value.Fits (dialect.limit + 1))
    (hother : other.Fits (dialect.limit + 1)) :
    (do (← value.items?).mapM (NamespaceDeclaration.ofValue? dialect)) =
      (do (← other.items?).mapM (NamespaceDeclaration.ofValue? dialect)) := by
  generalize hname : "includes" = name at h
  obtain ⟨hholds, _, hsame⟩ := h
  cases hholds with
  | space => exact absurd hname (by decide)
  | included before after =>
      exact mapM_among_eq before after
        (hsame dialect (fits_of_among hvalue) (fits_of_among hother))

theorem Within.entities_eq {value other : Value} (h : space.Within "entities" value other)
    {limit : Nat} (hvalue : value.Fits (limit + 1)) (hother : other.Fits (limit + 1)) :
    (do (← value.items?).mapM (Declaration.ofValue? limit)) =
      (do (← other.items?).mapM (Declaration.ofValue? limit)) := by
  obtain ⟨hholds, _, hsame⟩ := h
  cases hholds with
  | entity kind before after =>
      exact mapM_among_eq before after
        (hsame limit (fits_of_among hvalue) (fits_of_among hother))

variable {kind : EntityKind}

theorem Within.children_eq {value other : Value}
    (h : (declaration kind).Within "children" value other) {limit : Nat}
    (hvalue : value.Fits (limit + 1)) (hother : other.Fits (limit + 1)) :
    (do (← value.items?).mapM (Declaration.ofValue? limit)) =
      (do (← other.items?).mapM (Declaration.ofValue? limit)) := by
  generalize hname : "children" = name at h
  obtain ⟨hholds, _, hsame⟩ := h
  cases hholds with
  | child kind inner before after =>
      exact mapM_among_eq before after
        (hsame limit (fits_of_among hvalue) (fits_of_among hother))
  | parameter => exact absurd hname (by decide)
  | receiver => exact absurd hname (by decide)

theorem Within.children_not_fits {value other : Value}
    (h : (declaration kind).Within "children" value other) : ¬ value.Fits 0 := by
  generalize hname : "children" = name at h
  obtain ⟨hholds, _, _⟩ := h
  cases hholds with
  | child => exact Value.not_fits_list
  | parameter => exact absurd hname (by decide)
  | receiver => exact absurd hname (by decide)

theorem Within.parameters_eq {value other : Value}
    (h : (declaration kind).Within "parameters" value other) :
    (do (← value.items?).mapM Parameter.ofValue?) =
      (do (← other.items?).mapM Parameter.ofValue?) := by
  generalize hname : "parameters" = name at h
  obtain ⟨hholds, _, hsame⟩ := h
  cases hholds with
  | child => exact absurd hname (by decide)
  | parameter kind before after => exact mapM_among_eq before after hsame
  | receiver => exact absurd hname (by decide)

theorem Within.receiver_eq {value other : Value}
    (h : (declaration kind).Within "instance_parameter" value other) :
    Value.optional? Parameter.ofValue? value = Value.optional? Parameter.ofValue? other := by
  generalize hname : "instance_parameter" = name at h
  obtain ⟨hholds, hchanges, hsame⟩ := h
  cases hholds with
  | child => exact absurd hname (by decide)
  | parameter => exact absurd hname (by decide)
  | receiver =>
      have hvalue := congrArg (Option.map some) hsame
      cases hchanges <;> exact hvalue

theorem same_parameter (h : parameter.Alike fields others) :
    parameter.Same (.ofFields fields) (.ofFields others) := by
  simp only [Same, Parameter.ofValue?, Value.fieldsIn?_ofFields, Option.bind_eq_bind,
    Option.bind_some, h.required?_eq "name" Value.text? (by decide) rfl (by decide),
    h.optional?_eq "varargs" false Value.flag? rfl rfl (by decide)]

def AlikeOwn (kind : EntityKind) (fields others : Fields) : Prop :=
  ∀ name ∉ EntityInfo.commonNames, (declaration kind).Knows name →
    (declaration kind).AlikeAt name (fields.value? name) (others.value? name)

theorem AlikeOwn.optional?_eq {α : Type} (h : AlikeOwn kind fields others) (name : String)
    (default : α) (decode : Value → Option α) {value : Value}
    (hdefault : (declaration kind).defaults.lookup name = some value)
    (hdecode : decode value = some default)
    (hname : name ∉ EntityInfo.commonNames ++ heldNames) :
    fields.optional? name default decode = others.optional? name default decode := by
  obtain ⟨hcommon, hheld⟩ := not_or.mp (mt List.mem_append.mpr hname)
  exact (h name hcommon (.inr (hdefault ▸ rfl))).optional?_eq hdefault (fun _ => hdecode)
    fun _ _ _ _ hwithin => absurd hwithin (not_within hheld)

theorem callable_eq (h : AlikeOwn kind fields others)
    (hdefaults : (declaration kind).defaults = (declaration (.callback {})).defaults) :
    Callable.ofFields? fields = Callable.ofFields? others := by
  have hdefault {name : String} {value : Value}
      (hlookup : (declaration (.callback {})).defaults.lookup name = some value) :
      (declaration kind).defaults.lookup name = some value :=
    hdefaults ▸ hlookup
  have hparameters :
      fields.optional? "parameters" [] (fun value => do
        (← value.items?).mapM Parameter.ofValue?) =
      others.optional? "parameters" [] (fun value => do
        (← value.items?).mapM Parameter.ofValue?) :=
    (h _ (by decide) (.inr (hdefaults ▸ rfl))).optional?_eq (hdefault rfl) (fun _ => rfl)
      fun _ _ _ _ hwithin => hwithin.parameters_eq
  have hreceiver :
      fields.optional? "instance_parameter" none (Value.optional? Parameter.ofValue?) =
        others.optional? "instance_parameter" none (Value.optional? Parameter.ofValue?) :=
    (h _ (by decide) (.inr (hdefaults ▸ rfl))).optional?_eq (hdefault rfl) (fun _ => rfl)
      fun _ _ _ _ hwithin => hwithin.receiver_eq
  simp only [Callable.ofFields?, hparameters, hreceiver,
    h.optional?_eq "is_method" false Value.flag? (hdefault rfl) rfl (by decide),
    h.optional?_eq "is_constructor" false Value.flag? (hdefault rfl) rfl (by decide),
    h.optional?_eq "shadows" none (Value.optional? Value.text?) (hdefault rfl) rfl (by decide),
    h.optional?_eq "shadowed_by" none (Value.optional? Value.text?) (hdefault rfl) rfl
      (by decide)]

theorem access_eq {access : PropertyAccess} (h : AlikeOwn (.property access) fields others) :
    PropertyAccess.ofFields? fields = PropertyAccess.ofFields? others := by
  simp only [PropertyAccess.ofFields?,
    h.optional?_eq "readable" true Value.flag? rfl rfl (by decide),
    h.optional?_eq "writable" false Value.flag? rfl rfl (by decide),
    h.optional?_eq "construct" false Value.flag? rfl rfl (by decide),
    h.optional?_eq "construct_only" false Value.flag? rfl rfl (by decide)]

theorem read_eq (h : AlikeOwn kind fields others) {read : Fields → Option EntityKind}
    (hread : EntityKind.readers.lookup kind.kindName = some read) : read fields = read others := by
  cases kind with
  | classType parent interfaces typeName =>
      cases hread
      simp only [EntityKind.classOfFields?,
        h.optional?_eq "parent_type" none (Value.optional? Value.text?) rfl rfl (by decide),
        h.optional?_eq "interfaces" [] Value.texts? rfl rfl (by decide),
        h.optional?_eq "gtype_name" none (Value.optional? Value.text?) rfl rfl (by decide)]
  | interfaceType prerequisites typeName =>
      cases hread
      simp only [EntityKind.interfaceOfFields?,
        h.optional?_eq "prerequisites" [] Value.texts? rfl rfl (by decide),
        h.optional?_eq "gtype_name" none (Value.optional? Value.text?) rfl rfl (by decide)]
  | callback callable | function callable | virtualFunction callable | signal callable =>
      cases hread
      simp only [callable_eq h rfl]
  | property access =>
      cases hread
      simp only [access_eq h]
  | _ =>
      cases hread
      rfl

theorem kind_eq (h : AlikeOwn kind fields others) (hadmits : (declaration kind).Admits fields) :
    EntityKind.ofFields? fields = EntityKind.ofFields? others := by
  have hkind :
      fields.required? "kind" EntityKind.reader? = others.required? "kind" EntityKind.reader? :=
    (h _ (by decide) (.inl (by simp [required]))).required?_eq (by cases kind <;> rfl)
      fun _ _ _ _ hwithin => absurd hwithin (not_within (by decide))
  rw [EntityKind.ofFields?, EntityKind.ofFields?, ← hkind]
  cases hread : fields.required? "kind" EntityKind.reader? with
  | none => rfl
  | some read => exact read_eq h (hadmits read hread)

theorem value?_own (fields : Fields) {name : String} (h : name ∉ EntityInfo.commonNames) :
    Fields.value? (fields.filter fun field => field.1 ∉ EntityInfo.commonNames) name =
      fields.value? name :=
  Fields.value?_filter (fun name => decide (name ∉ EntityInfo.commonNames)) (decide_eq_true h)

theorem Alike.own (h : (declaration kind).Alike fields others) :
    AlikeOwn kind (fields.filter fun field => field.1 ∉ EntityInfo.commonNames)
      (others.filter fun field => field.1 ∉ EntityInfo.commonNames) := by
  intro name hname hknows
  rw [value?_own fields hname, value?_own others hname]
  exact h name hknows

theorem Admits.own (h : (declaration kind).Admits fields) :
    (declaration kind).Admits
      (fields.filter fun field => field.1 ∉ EntityInfo.commonNames) := by
  intro read hread
  rw [Fields.required?, value?_own fields (by decide)] at hread
  exact h read hread

theorem mapM_settled?_eq {limit : Nat} (h : ∀ field ∈ fields, field.2.Fits limit) :
    fields.mapM (fun (name, value) => do return (name, ← value.settled? limit)) =
      some fields := by
  refine (congrArg _ fields.map_id.symm).trans (mapM_map_eq_some fun field hfield => ?_)
  have hsettled : field.2.settled? limit = some field.2 := (h field hfield).settled?_eq
  simp only [id, hsettled]
  rfl

theorem infoOfFields?_eq {limit : Nat} (h : ∀ field ∈ fields, field.2.Fits limit) :
    EntityInfo.ofFields? limit fields = do
      return {
        name := ← fields.required? "name" Value.text?
        symbol := ← fields.optional? "symbol" none (Value.optional? Value.text?)
        isPrivate := ← fields.optional? "private" false Value.flag?
        isIntrospectable := ← fields.optional? "introspectable" true Value.flag?
        kind := ← EntityKind.ofFields?
          (fields.filter fun field => field.1 ∉ EntityInfo.commonNames) } := by
  have hsettled := mapM_settled?_eq
    fun field (hfield : field ∈ fields.filter fun field => field.1 ∉ EntityInfo.commonNames) =>
      h field (List.mem_filter.mp hfield).1
  rw [EntityInfo.ofFields?, hsettled]
  rfl

theorem info_eq {limit : Nat} (hadmits : (declaration kind).Admits fields)
    (h : (declaration kind).Alike fields others) (hfields : ∀ field ∈ fields, field.2.Fits limit)
    (hothers : ∀ field ∈ others, field.2.Fits limit) :
    EntityInfo.ofFields? limit fields = EntityInfo.ofFields? limit others := by
  simp only [infoOfFields?_eq hfields, infoOfFields?_eq hothers,
    kind_eq h.own (Admits.own hadmits),
    h.required?_eq "name" Value.text? (by simp [required]) (by cases kind <;> rfl) (by decide),
    h.optional?_eq "symbol" none (Value.optional? Value.text?) rfl rfl (by decide),
    h.optional?_eq "private" false Value.flag? rfl rfl (by decide),
    h.optional?_eq "introspectable" true Value.flag? rfl rfl (by decide)]

/-- What is read of the children of a declaration, below which things are nested at most `limit`
deep. -/
def readChildren? (limit : Nat) (value : Value) : Option (List Declaration) :=
  match limit with
  | 0 => if value.isBlank then some [] else none
  | inner + 1 => do (← value.items?).mapM (Declaration.ofValue? inner)

theorem ofValue?_succ (limit : Nat) (value : Value) :
    Declaration.ofValue? (limit + 1) value = do
      let fields ← value.fields? []
      return {
        toEntityInfo := ← EntityInfo.ofFields? limit fields
        children := ← fields.optional? "children" [] (readChildren? limit) } := by
  cases limit <;> rfl

theorem same_declaration (hadmits : (declaration kind).Admits fields)
    (h : (declaration kind).Alike fields others) :
    (declaration kind).Same (.ofFields fields) (.ofFields others) := by
  intro limit hfields hothers
  cases limit with
  | zero => rfl
  | succ limit =>
      rw [Value.fits_ofFields_iff] at hfields hothers
      have hchildren :
          fields.optional? "children" [] (readChildren? limit) =
            others.optional? "children" [] (readChildren? limit) := by
        refine (h _ (.inr rfl)).optional?_eq rfl ?_ ?_
        · intro hmem
          cases limit with
          | zero => exact absurd (hfields _ hmem) Value.not_fits_list
          | succ limit => rfl
        · intro value other hvalue hother hwithin
          cases limit with
          | zero => exact absurd (hfields _ hvalue) hwithin.children_not_fits
          | succ limit => exact hwithin.children_eq (hfields _ hvalue) (hothers _ hother)
      simp only [ofValue?_succ, Value.fields?_ofFields, Option.bind_eq_bind, Option.bind_some,
        info_eq hadmits h hfields hothers, hchildren]

theorem same_space (h : space.Alike fields others) :
    space.Same (.ofFields fields) (.ofFields others) := by
  rintro ⟨limit, positional⟩ hfields hothers
  cases limit with
  | zero => exact absurd hfields Value.not_fits_ofFields
  | succ limit =>
      rw [Value.fits_ofFields_iff] at hfields hothers
      have hentities :
          fields.optional? "entities" [] (fun value => do
            (← value.items?).mapM (Declaration.ofValue? (limit + 1 - 2))) =
          others.optional? "entities" [] (fun value => do
            (← value.items?).mapM (Declaration.ofValue? (limit + 1 - 2))) := by
        refine (h _ (.inr rfl)).optional?_eq rfl (fun _ => rfl) ?_
        intro value other hvalue hother hwithin
        have hle : limit ≤ limit + 1 - 2 + 1 := by omega
        exact hwithin.entities_eq ((hfields _ hvalue).mono hle) ((hothers _ hother).mono hle)
      simp only [NamespaceDeclaration.ofValue?, Value.fieldsIn?_ofFields, Option.bind_eq_bind,
        Option.bind_some] at hentities ⊢
      simp only [hentities,
        h.required?_eq "name" Value.text? (by decide) rfl (by decide),
        h.required?_eq "version" Value.text? (by decide) rfl (by decide),
        h.optional?_eq "identifier_prefixes" [] Value.texts? rfl rfl (by decide),
        h.optional?_eq "symbol_prefixes" [] Value.texts? rfl rfl (by decide),
        h.optional?_eq "exported_packages" [] Value.texts? rfl rfl (by decide)]

theorem same_repository (h : repository.Alike fields others) :
    repository.Same (.ofFields fields) (.ofFields others) := by
  rintro ⟨limit, positional⟩ hfields hothers
  cases limit with
  | zero => exact absurd hfields Value.not_fits_ofFields
  | succ limit =>
      rw [Value.fits_ofFields_iff] at hfields hothers
      have hspace :
          fields.required? "namespace"
            (NamespaceDeclaration.ofValue? ⟨limit + 1 - 1, positional⟩) =
          others.required? "namespace"
            (NamespaceDeclaration.ofValue? ⟨limit + 1 - 1, positional⟩) := by
        refine (h _ (.inl (by decide))).required?_eq rfl ?_
        intro value other hvalue hother hwithin
        exact hwithin.space_eq _ (hfields _ hvalue) (hothers _ hother)
      have hincludes :
          fields.optional? "includes" [] (fun value => do
            (← value.items?).mapM
              (NamespaceDeclaration.ofValue? ⟨limit + 1 - 2, positional⟩)) =
          others.optional? "includes" [] (fun value => do
            (← value.items?).mapM
              (NamespaceDeclaration.ofValue? ⟨limit + 1 - 2, positional⟩)) := by
        refine (h _ (.inr rfl)).optional?_eq rfl (fun _ => rfl) ?_
        intro value other hvalue hother hwithin
        have hle : limit ≤ limit + 1 - 2 + 1 := by omega
        exact hwithin.includes_eq _ ((hfields _ hvalue).mono hle) ((hothers _ hother).mono hle)
      simp only [RepositoryDeclaration.ofValue?, Value.fieldsIn?_ofFields, Option.bind_eq_bind,
        Option.bind_some] at hspace hincludes ⊢
      rw [hspace, hincludes]

theorem same_of_alike (hadmits : shape.Admits fields) (h : shape.Alike fields others) :
    shape.Same (.ofFields fields) (.ofFields others) := by
  cases shape with
  | parameter => exact same_parameter h
  | declaration kind => exact same_declaration hadmits h
  | space => exact same_space h
  | repository => exact same_repository h

theorem exists_kind_of_mem {entry : String × (Fields → Option EntityKind)}
    (h : entry ∈ EntityKind.readers) :
    ∃ kind ∈ entry.2 [], EntityKind.readers.lookup kind.kindName = some entry.2 := by
  fin_cases h <;> exact ⟨_, rfl, rfl⟩

theorem exists_kind {value : Value} {read : Fields → Option EntityKind}
    (h : EntityKind.reader? value = some read) :
    ∃ kind : EntityKind, EntityKind.readers.lookup kind.kindName = some read := by
  have hmem : ∃ name, (name, read) ∈ EntityKind.readers := by
    cases value with
    | text name =>
        obtain ⟨before, after, heq, _⟩ := List.lookup_eq_some_iff.mp h
        exact ⟨name, heq ▸ List.mem_append_right _ List.mem_cons_self⟩
    | natural place =>
        obtain ⟨entry, hentry, rfl⟩ := Option.map_eq_some_iff.mp h
        exact ⟨entry.1, List.mem_of_getElem? hentry⟩
    | _ => cases h
  obtain ⟨name, hmem⟩ := hmem
  obtain ⟨kind, _, hkind⟩ := exists_kind_of_mem hmem
  exact ⟨kind, hkind⟩

theorem exists_admits (shape : Shape) (fields : Fields) :
    ∃ other : Shape, other.Admits fields ∧ other.Same = shape.Same ∧
      ∀ {name inner around}, shape.Holds name inner around → other.Holds name inner around := by
  cases shape with
  | declaration kind =>
      cases hread : fields.required? "kind" EntityKind.reader? with
      | none => exact ⟨declaration kind, by simp [Admits, hread], rfl, id⟩
      | some read =>
          obtain ⟨found, _, hfound⟩ := Option.bind_eq_some_iff.mp hread
          obtain ⟨value, _, hvalue⟩ := Option.bind_eq_some_iff.mp hfound
          obtain ⟨other, hother⟩ := exists_kind hvalue
          refine ⟨declaration other, ?_, rfl, ?_⟩
          · intro found hfound
            cases hread.symm.trans hfound
            exact hother
          · intro name inner around hholds
            cases hholds with
            | child _ inner before after => exact .child other inner before after
            | parameter _ before after => exact .parameter other before after
            | receiver => exact .receiver other
  | parameter => exact ⟨parameter, trivial, rfl, id⟩
  | space => exact ⟨space, trivial, rfl, id⟩
  | repository => exact ⟨repository, trivial, rfl, id⟩

theorem fieldsIn?_list (positional : Bool) (names : List String) (items : List Value) :
    (Value.list items).fieldsIn? positional names =
      if positional = true ∧ items.length ≤ names.length then
        (Value.ofFields (names.zip items)).fieldsIn? positional names
      else none := by
  rw [Value.fieldsIn?_ofFields]
  rfl

theorem fits_zip {limit : Nat} {items : List Value} (h : (Value.list items).Fits limit)
    (names : List String) : (Value.ofFields (names.zip items)).Fits limit := by
  cases limit with
  | zero => exact absurd h Value.not_fits_list
  | succ limit =>
      rw [Value.fits_ofFields_iff]
      exact fun field hfield => Value.fits_list_iff.mp h _ (List.of_mem_zip hfield).2

theorem same_list {items otherItems : List Value} (hlength : items.length = otherItems.length)
    (h : shape.Same (.ofFields (shape.places.zip items))
      (.ofFields (shape.places.zip otherItems))) :
    shape.Same (.list items) (.list otherItems) := by
  cases shape with
  | parameter =>
      simp only [Same, Parameter.ofValue?, fieldsIn?_list, hlength] at h ⊢
      split
      · exact h
      · rfl
  | declaration kind =>
      intro limit _ _
      cases limit with
      | zero => rfl
      | succ limit => rw [ofValue?_succ, ofValue?_succ]; rfl
  | space =>
      intro dialect hitems hothers
      rw [NamespaceDeclaration.ofValue?, NamespaceDeclaration.ofValue?, fieldsIn?_list,
        fieldsIn?_list, hlength]
      split
      · exact h dialect (fits_zip hitems _) (fits_zip hothers _)
      · rfl
  | repository =>
      intro dialect hitems hothers
      rw [RepositoryDeclaration.ofValue?, RepositoryDeclaration.ofValue?, fieldsIn?_list,
        fieldsIn?_list, hlength]
      split
      · exact h dialect (fits_zip hitems _) (fits_zip hothers _)
      · rfl

theorem zip_perm {names : List String} {before after : List Value} {name : String}
    (hname : names[before.length]? = some name) :
    ∃ fields : Fields, ∀ value : Value,
      (names.zip (before ++ value :: after)).Perm ((name, value) :: fields) := by
  induction before generalizing names with
  | nil =>
      obtain _ | ⟨first, rest⟩ := names
      · cases hname
      · cases hname
        exact ⟨rest.zip after, fun value => .refl _⟩
  | cons item before ih =>
      obtain _ | ⟨first, rest⟩ := names
      · cases hname
      · obtain ⟨fields, hperm⟩ := ih hname
        exact ⟨(first, item) :: fields, fun value => ((hperm value).cons _).trans (.swap ..)⟩

theorem admits_of_places {name : String} {place : Nat}
    (h : shape.places[(place : Nat)]? = some name) (fields : Fields) : shape.Admits fields := by
  cases shape with
  | declaration kind => cases h
  | _ => trivial

theorem Alike.place {name : String} {value other : Value} {before after : List Value}
    (hname : shape.places[before.length]? = some name) (h : shape.Within name value other) :
    shape.Alike (shape.places.zip (before ++ value :: after))
      (shape.places.zip (before ++ other :: after)) := by
  obtain ⟨fields, hperm⟩ := zip_perm hname
  intro known hknows
  rw [Fields.value?_perm (hperm value), Fields.value?_perm (hperm other)]
  exact Alike.within h known hknows

end Shape

theorem Changes.same {shape : Shape} {value other : Value} (h : Changes shape value other) :
    shape.Same value other := by
  induction h with
  | @reorder shape fields others h =>
      obtain ⟨kind, hadmits, hsame, _⟩ := shape.exists_admits fields
      exact hsame ▸ Shape.same_of_alike hadmits (.of_perm h)
  | add hadmits hname _ => exact Shape.same_of_alike hadmits (.add hname _)
  | leaveOut hadmits hdefault honce =>
      exact Shape.same_of_alike hadmits (.leaveOut hdefault honce)
  | @field shape inner name around value other fields hholds h ih =>
      obtain ⟨kind, hadmits, hsame, hother⟩ :=
        shape.exists_admits ((name, around value) :: fields)
      exact hsame ▸ Shape.same_of_alike hadmits (.within (.intro (hother hholds) h ih))
  | place before after hname hholds h ih =>
      refine Shape.same_list (by simp) ?_
      exact Shape.same_of_alike (Shape.admits_of_places hname _) (.place hname (.intro hholds h ih))

end DocMarkup
