import Mathlib.Data.List.Forall2
import DocMarkup.Data.Decode

/-!
Values without a notation, and the fields of records.

A value that a JSON text can hold has nothing in it that a notation leaves open. It means what it
is, and the limit of a notation counts for it only if it is nested deeper. Of a record only the
values of its fields count, and not the order that they stand in.
-/

namespace DocMarkup.Data

theorem mapM_congr {α β : Type} {decode other : α → Option β} {items : List α}
    (h : ∀ item ∈ items, decode item = other item) : items.mapM decode = items.mapM other := by
  induction items with
  | nil => rfl
  | cons item rest ih =>
      obtain ⟨hitem, hrest⟩ := List.forall_mem_cons.mp h
      rw [List.mapM_cons, List.mapM_cons, hitem, ih hrest]

theorem mapM_map_eq_some {α β : Type} {decode : β → Option α} {encode : α → β} {items : List α}
    (h : ∀ item ∈ items, decode (encode item) = some item) :
    (items.map encode).mapM decode = some items := by
  rw [List.mapM_map]
  exact (mapM_congr h).trans ((List.mapM_pure (f := id)).trans (congrArg some items.map_id))

namespace Value

/-- A value as JSON has it: with keys that are text, without scalars that stand for several
things and without what cannot be read. -/
inductive IsJson : Value → Prop
  | null : IsJson null
  | flag (value : Bool) : IsJson (flag value)
  | natural (value : Nat) : IsJson (natural value)
  | number : IsJson number
  | text (value : String) : IsJson (text value)
  | list {items : List Value} (h : ∀ item ∈ items, IsJson item) : IsJson (list items)
  | record {fields : Fields} (h : ∀ field ∈ fields, IsJson field.2) : IsJson (ofFields fields)

theorem ofFields_inj {fields others : Fields} :
    ofFields fields = ofFields others ↔ fields = others := by
  constructor
  · intro h
    have hinj : Function.Injective fun (field : String × Value) => (text field.1, field.2) := by
      rintro ⟨name, value⟩ ⟨other, otherValue⟩ heq
      cases heq
      rfl
    exact hinj.list_map (Value.record.inj h)
  · exact congrArg ofFields

theorem isJson_ofFields_iff {fields : Fields} :
    (ofFields fields).IsJson ↔ ∀ field ∈ fields, field.2.IsJson := by
  constructor
  · intro h
    generalize hvalue : ofFields fields = value at h
    cases h with
    | record h => exact ofFields_inj.mp hvalue ▸ h
    | _ => cases hvalue
  · exact .record

theorem isJson_list_iff {items : List Value} :
    (list items).IsJson ↔ ∀ item ∈ items, item.IsJson := by
  constructor
  · intro h
    generalize hvalue : list items = value at h
    cases h with
    | list h =>
        cases hvalue
        exact h
    | _ => cases hvalue
  · exact .list

mutual

def depth : Value → Nat
  | list items => depthAll items + 1
  | record fields => depthFields fields + 1
  | _ => 0

def depthAll : List Value → Nat
  | [] => 0
  | item :: rest => max (depth item) (depthAll rest)

def depthFields : List (Value × Value) → Nat
  | [] => 0
  | (key, value) :: rest => max (max (depth key) (depth value)) (depthFields rest)

end

variable {limit : Nat}

theorem depthAll_le_iff {items : List Value} :
    depthAll items ≤ limit ↔ ∀ item ∈ items, item.depth ≤ limit := by
  induction items with
  | nil => simp [depthAll]
  | cons item rest ih => rw [depthAll, Nat.max_le, ih, List.forall_mem_cons]

theorem depth_list_le_iff {items : List Value} :
    (list items).depth ≤ limit + 1 ↔ ∀ item ∈ items, item.depth ≤ limit := by
  rw [depth, Nat.add_le_add_iff_right, depthAll_le_iff]

theorem depth_ofFields_le_iff {fields : Fields} :
    (ofFields fields).depth ≤ limit + 1 ↔ ∀ field ∈ fields, field.2.depth ≤ limit := by
  rw [ofFields, depth, Nat.add_le_add_iff_right]
  induction fields with
  | nil => simp [depthFields]
  | cons field rest ih =>
      rw [List.map_cons, depthFields, Nat.max_le, ih, List.forall_mem_cons]
      simp [depth]

/-- JSON that is nested at most `limit` deep. -/
structure Fits (limit : Nat) (value : Value) : Prop where
  isJson : value.IsJson
  depth_le : value.depth ≤ limit

theorem Fits.mono {value : Value} {larger : Nat} (h : value.Fits limit) (hle : limit ≤ larger) :
    value.Fits larger :=
  ⟨h.isJson, Nat.le_trans h.depth_le hle⟩

theorem fits_list_iff {items : List Value} :
    (list items).Fits (limit + 1) ↔ ∀ item ∈ items, item.Fits limit := by
  constructor
  · intro h item hitem
    exact ⟨isJson_list_iff.mp h.isJson item hitem, depth_list_le_iff.mp h.depth_le item hitem⟩
  · intro h
    exact ⟨.list fun item hitem => (h item hitem).isJson,
      depth_list_le_iff.mpr fun item hitem => (h item hitem).depth_le⟩

theorem fits_ofFields_iff {fields : Fields} :
    (ofFields fields).Fits (limit + 1) ↔ ∀ field ∈ fields, field.2.Fits limit := by
  constructor
  · intro h field hfield
    exact ⟨isJson_ofFields_iff.mp h.isJson field hfield,
      depth_ofFields_le_iff.mp h.depth_le field hfield⟩
  · intro h
    exact ⟨.record fun field hfield => (h field hfield).isJson,
      depth_ofFields_le_iff.mpr fun field hfield => (h field hfield).depth_le⟩

theorem not_fits_list {items : List Value} : ¬ (list items).Fits 0 := by
  intro h
  exact absurd h.depth_le (Nat.not_succ_le_zero _)

theorem not_fits_ofFields {fields : Fields} : ¬ (ofFields fields).Fits 0 := by
  intro h
  exact absurd h.depth_le (Nat.not_succ_le_zero _)

theorem settledAll?_eq {items : List Value}
    (h : ∀ item ∈ items, settled? limit item = some item) :
    settledAll? limit items = some items := by
  induction items with
  | nil => rfl
  | cons item rest ih =>
      obtain ⟨hitem, hrest⟩ := List.forall_mem_cons.mp h
      rw [settledAll?, hitem, ih hrest]
      rfl

theorem settledFields?_eq {fields : Fields}
    (h : ∀ field ∈ fields, settled? limit field.2 = some field.2) :
    settledFields? limit (fields.map fun (name, value) => (text name, value)) =
      some (fields.map fun (name, value) => (text name, value)) := by
  induction fields with
  | nil => rfl
  | cons field rest ih =>
      obtain ⟨hfield, hrest⟩ := List.forall_mem_cons.mp h
      rw [List.map_cons, settledFields?, ih hrest, hfield]
      cases limit <;> rfl

theorem Fits.settled?_eq {value : Value} (h : value.Fits limit) :
    settled? limit value = some value := by
  obtain ⟨hjson, hdepth⟩ := h
  induction hjson generalizing limit with
  | list _ ih =>
      cases limit with
      | zero => simp [depth] at hdepth
      | succ limit =>
          rw [settled?, settledAll?_eq fun item hitem =>
            ih item hitem (depth_list_le_iff.mp hdepth item hitem)]
          rfl
  | record _ ih =>
      cases limit with
      | zero => simp [ofFields, depth] at hdepth
      | succ limit =>
          rw [ofFields, settled?, settledFields?_eq fun field hfield =>
            ih field hfield (depth_ofFields_le_iff.mp hdepth field hfield)]
          rfl
  | _ => cases limit <;> rfl

theorem namedFields?_ofFields (names : List String) (fields : Fields) :
    namedFields? names (fields.map fun (name, value) => (text name, value)) = some fields := by
  induction fields with
  | nil => rfl
  | cons field rest ih =>
      rw [List.map_cons, namedFields?, ih]
      rfl

@[simp] theorem fields?_ofFields (names : List String) (fields : Fields) :
    (ofFields fields).fields? names = some fields :=
  namedFields?_ofFields names fields

@[simp] theorem fieldsIn?_ofFields (positional : Bool) (names : List String) (fields : Fields) :
    (ofFields fields).fieldsIn? positional names = some fields :=
  namedFields?_ofFields names fields

theorem IsJson.eq_ofFields {value : Value} (h : value.IsJson) (names : List String)
    {fields : Fields} (hfields : value.fields? names = some fields) : value = ofFields fields := by
  cases h with
  | record => rw [← Option.some.inj ((fields?_ofFields names _).symm.trans hfields)]
  | _ => cases hfields

theorem IsJson.eq_list {value : Value} (h : value.IsJson) {items : List Value}
    (hitems : value.items? = some items) : value = Value.list items := by
  cases h with
  | list => rw [← Option.some.inj hitems]
  | _ => cases hitems

theorem IsJson.isBlank_eq_false {value : Value} (h : value.IsJson) : value.isBlank = false := by
  cases h <;> rfl

end Value

namespace Fields

variable {fields others : Fields} {name : String}

theorem value?_cons_of_ne {field : String × Value} (h : field.1 ≠ name) :
    Fields.value? (field :: fields) name = fields.value? name := by
  have hbeq : ¬ (field.1 == name) = true := mt beq_iff_eq.mp h
  rw [Fields.value?, Fields.value?, List.filter_cons, if_neg hbeq]

theorem value?_cons_of_eq {field : String × Value} (h : field.1 = name) :
    Fields.value? (field :: fields) name =
      match fields.value? name with
      | some none => some (some field.2)
      | _ => none := by
  rw [Fields.value?, Fields.value?, List.filter_cons, if_pos (beq_iff_eq.mpr h)]
  cases fields.filter fun field => field.1 == name with
  | nil => rfl
  | cons first rest => cases rest <;> rfl

theorem value?_eq_some_none_iff :
    fields.value? name = some none ↔ name ∉ fields.map Prod.fst := by
  induction fields with
  | nil => simp [Fields.value?]
  | cons field rest ih =>
      by_cases h : field.1 = name
      · rw [value?_cons_of_eq h]
        split <;> simp [h]
      · rw [value?_cons_of_ne h, ih, List.map_cons, List.mem_cons, not_or]
        exact (and_iff_right (Ne.symm h)).symm

theorem mem_of_value? {value : Value} (h : fields.value? name = some (some value)) :
    (name, value) ∈ fields := by
  induction fields with
  | nil => cases h
  | cons field rest ih =>
      by_cases hname : field.1 = name
      · rw [value?_cons_of_eq hname] at h
        split at h
        · cases h
          exact hname ▸ List.mem_cons_self
        · cases h
      · rw [value?_cons_of_ne hname] at h
        exact List.mem_cons_of_mem _ (ih h)

theorem value?_perm (h : fields.Perm others) (name : String) :
    fields.value? name = others.value? name := by
  induction h with
  | nil => rfl
  | cons field _ ih =>
      by_cases hname : field.1 = name
      · rw [value?_cons_of_eq hname, value?_cons_of_eq hname, ih]
      · rw [value?_cons_of_ne hname, value?_cons_of_ne hname, ih]
  | swap first second rest =>
      by_cases hfirst : first.1 = name
      · rw [value?_cons_of_eq hfirst]
        by_cases hsecond : second.1 = name
        · rw [value?_cons_of_eq hsecond, value?_cons_of_eq hfirst, value?_cons_of_eq hsecond]
          rcases Fields.value? rest name with _ | _ | _ <;> rfl
        · rw [value?_cons_of_ne hsecond, value?_cons_of_ne hsecond, value?_cons_of_eq hfirst]
      · rw [value?_cons_of_ne hfirst]
        by_cases hsecond : second.1 = name
        · rw [value?_cons_of_eq hsecond, value?_cons_of_eq hsecond, value?_cons_of_ne hfirst]
        · rw [value?_cons_of_ne hsecond, value?_cons_of_ne hsecond, value?_cons_of_ne hfirst]
  | trans _ _ ihFirst ihSecond => exact ihFirst.trans ihSecond

theorem value?_filter (test : String → Bool) (h : test name = true) :
    Fields.value? (fields.filter fun field => test field.1) name = fields.value? name := by
  rw [Fields.value?, Fields.value?, List.filter_filter]
  congr 1
  refine List.filter_congr fun field _ => ?_
  by_cases hname : field.1 = name
  · rw [hname, h, Bool.and_true]
  · rw [beq_eq_false_iff_ne.mpr hname, Bool.false_and]

theorem required?_congr {α : Type} (name : String) {decode other : Value → Option α}
    (h : ∀ value, (name, value) ∈ fields → decode value = other value) :
    fields.required? name decode = fields.required? name other := by
  unfold Fields.required?
  cases hfound : fields.value? name with
  | none => rfl
  | some found =>
      cases found with
      | none => rfl
      | some value => exact h value (Fields.mem_of_value? hfound)

theorem optional?_congr {α : Type} (name : String) (default : α)
    {decode other : Value → Option α}
    (h : ∀ value, (name, value) ∈ fields → decode value = other value) :
    fields.optional? name default decode = fields.optional? name default other := by
  unfold Fields.optional?
  cases hfound : fields.value? name with
  | none => rfl
  | some found =>
      cases found with
      | none => rfl
      | some value => exact h value (Fields.mem_of_value? hfound)

end Fields

end DocMarkup.Data
