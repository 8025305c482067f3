import DocMarkup.Proofs.Data.Reading

namespace DocMarkup

open Data

theorem mapM_items_congr {α : Type} {decode other : Value → Option α} {value : Value}
    {limit : Nat} (h : value.Fits limit)
    (hdecode : ∀ item : Value, item.Fits (limit - 1) → decode item = other item) :
    (do (← value.items?).mapM decode) = (do (← value.items?).mapM other) := by
  cases hitems : value.items? with
  | none => rfl
  | some items =>
      cases h.isJson.eq_list hitems
      cases limit with
      | zero => exact absurd h Value.not_fits_list
      | succ limit =>
          exact mapM_congr fun item hitem => hdecode item (Value.fits_list_iff.mp h item hitem)

theorem fits_of_fieldsIn? {value : Value} {limit : Nat} (h : value.Fits limit)
    {positional : Bool} {names : List String} {fields : Fields}
    (hfields : value.fieldsIn? positional names = some fields) :
    (Value.ofFields fields).Fits limit := by
  cases value with
  | list items =>
      rw [Shape.fieldsIn?_list, Value.fieldsIn?_ofFields] at hfields
      split at hfields
      · exact Option.some.inj hfields ▸ Shape.fits_zip h names
      · cases hfields
  | _ => exact h.isJson.eq_ofFields names hfields ▸ h

namespace Shape

theorem readChildren?_of_le {limit larger : Nat}
    (ih : ∀ inner < limit, ∀ {inside : Nat} {value : Value}, value.Fits inner → inner ≤ inside →
      Declaration.ofValue? inner value = Declaration.ofValue? inside value)
    {value : Value} (h : value.Fits limit) (hle : limit ≤ larger) :
    readChildren? limit value = readChildren? larger value := by
  cases limit with
  | succ limit =>
      obtain ⟨larger, rfl⟩ : ∃ inner, larger = inner + 1 :=
        Nat.exists_eq_add_of_le' (Nat.le_trans (Nat.le_add_left 1 limit) hle)
      exact mapM_items_congr h fun item hitem =>
        ih limit (Nat.lt_succ_self _) hitem (Nat.le_of_succ_le_succ hle)
  | zero =>
      -- No list fits, and what is no list has no children, whatever the limit.
      have hitems : value.items? = none := by
        refine Option.eq_none_iff_forall_not_mem.mpr fun items hitems => ?_
        exact Value.not_fits_list (h.isJson.eq_list hitems ▸ h)
      cases larger with
      | zero => rfl
      | succ larger => simp [readChildren?, hitems, h.isJson.isBlank_eq_false]

end Shape

namespace Declaration

theorem ofValue?_of_le {limit larger : Nat} {value : Value} (h : value.Fits limit)
    (hle : limit ≤ larger) : ofValue? limit value = ofValue? larger value := by
  induction limit using Nat.strong_induction_on generalizing larger value with
  | _ limit ih =>
      cases hfields : value.fields? [] with
      | none =>
          have hnone : ∀ limit, ofValue? limit value = none := by
            intro limit
            cases limit with
            | zero => rfl
            | succ limit => rw [Shape.ofValue?_succ, hfields]; rfl
          rw [hnone, hnone]
      | some fields =>
          have hrecord := h.isJson.eq_ofFields [] hfields
          subst hrecord
          obtain _ | limit := limit
          · exact absurd h Value.not_fits_ofFields
          · obtain _ | larger := larger
            · exact absurd hle (Nat.not_succ_le_zero _)
            · have hle : limit ≤ larger := Nat.le_of_succ_le_succ hle
              have hfits := Value.fits_ofFields_iff.mp h
              have hchildren := Fields.optional?_congr "children" []
                fun value hvalue => Shape.readChildren?_of_le
                  (fun inner hinner => ih inner (hinner.trans (Nat.lt_succ_self _)))
                  (hfits _ hvalue) hle
              simp only [Shape.ofValue?_succ, Value.fields?_ofFields, Option.bind_eq_bind,
                Option.bind_some, Shape.infoOfFields?_eq hfits,
                Shape.infoOfFields?_eq fun field hfield => (hfits field hfield).mono hle,
                hchildren]

end Declaration

namespace NamespaceDeclaration

theorem ofValue?_of_le {limit larger : Nat} {positional : Bool} {value : Value}
    (h : value.Fits limit) (hle : limit ≤ larger) :
    ofValue? ⟨limit, positional⟩ value = ofValue? ⟨larger, positional⟩ value := by
  unfold ofValue?
  dsimp only
  cases hfields : value.fieldsIn? positional fieldNames with
  | none => simp only [Option.bind_eq_bind, Option.bind_none]
  | some fields =>
      have hfits := fits_of_fieldsIn? h hfields
      obtain _ | limit := limit
      · exact absurd hfits Value.not_fits_ofFields
      · have hentities :
            fields.optional? "entities" [] (fun value => do
              (← value.items?).mapM (Declaration.ofValue? (limit + 1 - 2))) =
            fields.optional? "entities" [] (fun value => do
              (← value.items?).mapM (Declaration.ofValue? (larger - 2))) :=
          Fields.optional?_congr _ _ fun value hvalue =>
            mapM_items_congr (Value.fits_ofFields_iff.mp hfits _ hvalue) fun item hitem =>
              Declaration.ofValue?_of_le hitem (Nat.sub_le_sub_right hle 2)
        simp only [Option.bind_eq_bind, Option.bind_some] at hentities ⊢
        rw [hentities]

end NamespaceDeclaration

namespace RepositoryDeclaration

theorem ofValue?_of_le {limit larger : Nat} {positional : Bool} {value : Value}
    (h : value.Fits limit) (hle : limit ≤ larger) :
    ofValue? ⟨limit, positional⟩ value = ofValue? ⟨larger, positional⟩ value := by
  unfold ofValue?
  dsimp only
  cases hfields : value.fieldsIn? positional ["namespace", "includes"] with
  | none => simp only [Option.bind_eq_bind, Option.bind_none]
  | some fields =>
      have hfits := fits_of_fieldsIn? h hfields
      obtain _ | limit := limit
      · exact absurd hfits Value.not_fits_ofFields
      · have hspace :
            fields.required? "namespace"
              (NamespaceDeclaration.ofValue? ⟨limit + 1 - 1, positional⟩) =
            fields.required? "namespace"
              (NamespaceDeclaration.ofValue? ⟨larger - 1, positional⟩) :=
          Fields.required?_congr _ fun value hvalue =>
            NamespaceDeclaration.ofValue?_of_le (Value.fits_ofFields_iff.mp hfits _ hvalue)
              (Nat.sub_le_sub_right hle 1)
        have hincludes :
            fields.optional? "includes" [] (fun value => do
              (← value.items?).mapM
                (NamespaceDeclaration.ofValue? ⟨limit + 1 - 2, positional⟩)) =
            fields.optional? "includes" [] (fun value => do
              (← value.items?).mapM
                (NamespaceDeclaration.ofValue? ⟨larger - 2, positional⟩)) :=
          Fields.optional?_congr _ _ fun value hvalue =>
            mapM_items_congr (Value.fits_ofFields_iff.mp hfits _ hvalue) fun item hitem =>
              NamespaceDeclaration.ofValue?_of_le hitem (Nat.sub_le_sub_right hle 2)
        simp only [Option.bind_eq_bind, Option.bind_some] at hspace hincludes ⊢
        rw [hspace, hincludes]

end RepositoryDeclaration

end DocMarkup
